import DhtExplorer.Lookup

namespace DhtExplorer

/-!
# What every lookup finds

After removals a lookup may list contacts twice, and leave out others for them.
What it never leaves out are the contacts that share more bits with the target than
the own id does: the last bucket whose own bit the target contradicts is listed as a
whole.  Where there are no such contacts the answer still has one that is closer to
the target than the own id, if the table has one.

So whoever answers with a lookup brings the sender closer, and a contact is found
under its own id for as long as it is stored.
-/

/-- The id shares more leading bits with the target than the own id does. -/
def SharesMore (own target id : U160) : Prop := id = target ∨ commonPrefix own target < commonPrefix target id

variable {own : U160} {kSize : UInt8} {depth : Nat} {self : Bucket} {next chain : Chain} {target : U160}
  {node : NodeInfo}

/-- At the first bit that the own id has not in common with the target, the other has. -/
theorem SharesMore.getBit {id : U160} (more : SharesMore own target id) (shares : SharesPrefix own target depth)
    (differs : own.getBit depth ≠ target.getBit depth) : id.getBit depth = target.getBit depth := by
  rcases more with rfl | longer
  · rfl
  · have inside : depth < 160 := by
      by_contra outside
      apply differs
      rw [U160.getBit, U160.getBit, if_pos (Nat.le_of_not_lt outside), if_pos (Nat.le_of_not_lt outside)]
    rw [commonPrefix_eq inside shares differs] at longer
    exact ((le_commonPrefix (Nat.succ_le_of_lt inside)).mp longer depth (Nat.lt_succ_self depth)).symm

/-- What the own id has in common with the target, the other has. -/
theorem SharesMore.shares {id : U160} (more : SharesMore own target id) (inside : depth ≤ 160)
    (shares : SharesPrefix own target depth) : SharesPrefix target id depth := by
  rcases more with rfl | longer
  · exact fun _ _ => rfl
  · have ownLonger := (le_commonPrefix inside).mpr shares
    exact (le_commonPrefix inside).mp (Nat.le_of_lt (Nat.lt_of_le_of_lt ownLonger longer))

namespace Bucket

variable {room : Nat} {front nodes behind : List NodeInfo}

theorem mem_fill_of_front (member : node ∈ front) : node ∈ fill room front nodes behind :=
  List.mem_append_left _ (List.mem_append_left _ member)

theorem mem_fill_of_nodes (fits : nodes.length ≤ room) (member : node ∈ nodes) : node ∈ fill room [] nodes behind := by
  apply List.mem_append_left
  rw [List.nil_append, List.length_nil, Nat.sub_zero, List.take_of_length_le fits]
  exact member

theorem mem_fill_of_behind (fits : behind.length ≤ room) (member : node ∈ behind) :
    node ∈ fill room [] [] behind := by
  apply List.mem_append_right
  rw [List.take_nil, List.append_nil, List.length_nil, Nat.sub_zero, List.take_of_length_le fits]
  exact member

end Bucket

/-- A bucket that the target does not belong to has the own id's bit in common with it. -/
theorem Placed.getBit_target (placed : Placed own kSize depth self) (passes : self.idBelongsHere target = false) :
    own.getBit depth = target.getBit depth := by
  by_contra differs
  rw [placed.idBelongsHere_iff.mpr differs] at passes
  cases passes

/-! ## Contacts that share more bits -/

theorem Live.mem_lookup (live : Live own kSize depth chain) (shares : SharesPrefix own target depth)
    (stored : node ∈ Bucket.stored chain) (more : SharesMore own target node.id) :
    Exists fun nodes => Bucket.lookup chain target = some nodes ∧ node ∈ nodes := by
  induction live with
  | last placed =>
      rw [Bucket.stored_cons, Bucket.stored_nil, List.append_nil] at stored
      exact ⟨_, lookup_last placed target, stored⟩
  | @split depth self next placed differs behind ih =>
      rcases lookup_bounds behind target with ⟨later, found, bound, _⟩
      refine ⟨_, lookup_split placed behind.nonempty found bound, ?_⟩
      rw [Bucket.stored_cons, List.mem_append] at stored
      cases belongs : self.idBelongsHere target with
      | true =>
          have targetDiffers := placed.idBelongsHere_iff.mp belongs
          have same := more.getBit shares targetDiffers
          rcases stored with here | there
          · rw [if_pos rfl]
            exact Bucket.mem_fill_of_nodes placed.length_le here
          · have ownBit := behind.shares node there depth (Nat.lt_succ_self depth)
            exact absurd (ownBit.trans same) targetDiffers
      | false =>
          have targetSame := placed.getBit_target belongs
          rw [if_neg Bool.false_ne_true]
          apply Bucket.mem_fill_of_front
          have there : node ∈ Bucket.stored next := by
            refine stored.resolve_left fun here => differs node here ?_
            have same := more.shares (Nat.succ_le_succ placed.depth_le) (shares.succ targetSame)
            exact targetSame.trans (same depth (Nat.lt_succ_self depth))
          rcases ih (shares.succ targetSame) there with ⟨nodes, foundToo, member⟩
          rw [found, Option.some.injEq] at foundToo
          exact foundToo ▸ member

/-! ## Closer contacts -/

/-- A contact is closer to the target than the own id. -/
def CloserThan (own target : U160) (node : NodeInfo) : Prop := target.distance node.id < target.distance own

instance (own target : U160) (node : NodeInfo) : Decidable (CloserThan own target node) :=
  inferInstanceAs (Decidable (_ < _))

/-- Every contact of a bucket that the target belongs to is closer than the own id. -/
theorem Placed.closer (placed : Placed own kSize depth self)
    (differs : forall node, node ∈ self.nodes -> own.getBit depth ≠ node.id.getBit depth)
    (belongs : self.idBelongsHere target = true) (member : node ∈ self.nodes) : CloserThan own target node := by
  have targetDiffers := placed.idBelongsHere_iff.mp belongs
  have nodeDiffers := differs node member
  have sameSide : target.getBit depth = node.id.getBit depth := by
    revert targetDiffers nodeDiffers
    cases own.getBit depth <;> cases target.getBit depth <;> cases node.id.getBit depth <;> decide
  exact U160.distance_lt (fun index bound => (placed.shares node member index bound).symm) sameSide targetDiffers.symm

/-- No contact of a bucket that is passed is closer than the own id. -/
theorem Placed.not_closer (placed : Placed own kSize depth self)
    (differs : forall node, node ∈ self.nodes -> own.getBit depth ≠ node.id.getBit depth)
    (passes : self.idBelongsHere target = false) (member : node ∈ self.nodes) : ¬CloserThan own target node := by
  have targetSame := placed.getBit_target passes
  apply not_lt_of_gt
  exact U160.distance_lt (placed.shares node member) targetSame.symm (targetSame ▸ differs node member)

theorem Live.closer_lookup (live : Live own kSize depth chain) (stored : node ∈ Bucket.stored chain)
    (closer : CloserThan own target node) :
    Exists fun nodes => Bucket.lookup chain target = some nodes ∧
      Exists fun found => found ∈ nodes ∧ CloserThan own target found := by
  induction live with
  | last placed =>
      rw [Bucket.stored_cons, Bucket.stored_nil, List.append_nil] at stored
      exact ⟨_, lookup_last placed target, node, stored, closer⟩
  | @split depth self next placed differs behind ih =>
      rcases lookup_bounds behind target with ⟨later, laterFound, bound, _⟩
      refine ⟨_, lookup_split placed behind.nonempty laterFound bound, ?_⟩
      rw [Bucket.stored_cons, List.mem_append] at stored
      have advances : node ∈ Bucket.stored next -> Exists fun found => found ∈ later ∧ CloserThan own target found := by
        intro there
        rcases ih there with ⟨nodes, foundToo, found, member, foundCloser⟩
        rw [laterFound, Option.some.injEq] at foundToo
        exact ⟨found, foundToo ▸ member, foundCloser⟩
      cases belongs : self.idBelongsHere target with
      | true =>
          rw [if_pos rfl]
          -- An empty bucket leaves the whole answer to those behind it.
          cases nodes : self.nodes with
          | nil =>
              rw [nodes] at stored
              rcases advances (stored.resolve_left List.not_mem_nil) with ⟨found, member, foundCloser⟩
              exact ⟨found, Bucket.mem_fill_of_behind bound member, foundCloser⟩
          | cons first rest =>
              have member : first ∈ self.nodes := nodes ▸ List.mem_cons_self
              refine ⟨first, ?_, placed.closer differs belongs member⟩
              rw [<- nodes]
              exact Bucket.mem_fill_of_nodes placed.length_le member
      | false =>
          rw [if_neg Bool.false_ne_true]
          have there := stored.resolve_left fun here => placed.not_closer differs belongs here closer
          rcases advances there with ⟨found, member, foundCloser⟩
          exact ⟨found, Bucket.mem_fill_of_front member, foundCloser⟩

/-! ## Every reachable table -/

/-- Whatever was added and removed before, a lookup lists every stored contact that
shares more leading bits with the target than the own id does, and lists a contact
closer than the own id whenever one is stored. -/
theorem lookup_advances (own : U160) (kSize : UInt8) (calls : List TableCall) (target : U160) :
    Exists fun table => Exists fun answers => Exists fun nodes =>
      Bucket.performAll own kSize calls = some (table, answers) ∧ Bucket.lookup table target = some nodes ∧
      (forall node, node ∈ Bucket.stored table -> SharesMore own target node.id -> node ∈ nodes) ∧
      ((Exists fun node => node ∈ Bucket.stored table ∧ CloserThan own target node) ->
        Exists fun node => node ∈ nodes ∧ CloserThan own target node) := by
  rcases performAll_live own kSize calls with ⟨table, answers, performed, live⟩
  rcases lookup_bounds live target with ⟨nodes, found, _⟩
  refine ⟨table, answers, nodes, performed, found, ?_, ?_⟩
  · intro node stored more
    rcases live.mem_lookup (sharesPrefix_zero own target) stored more with ⟨same, foundToo, member⟩
    rw [found, Option.some.injEq] at foundToo
    exact foundToo ▸ member
  · rintro ⟨node, stored, closer⟩
    rcases live.closer_lookup stored closer with ⟨same, foundToo, listed⟩
    rw [found, Option.some.injEq] at foundToo
    exact foundToo ▸ listed

/-- A lookup of an id is an exact test of the eager table: the answer lists a contact
with the id exactly when the table holds it. -/
theorem lookup_finds_iff (own : U160) (kSize : UInt8) (roomForTwo : 2 ≤ kSize.toNat) (calls : List TableCall)
    (id : U160) :
    Exists fun table => Exists fun ids => Exists fun answers => Exists fun nodes =>
      Bucket.performAll own kSize calls = some (table, answers) ∧
      eagerPerformAll own kSize calls = some (ids, answers) ∧ Bucket.lookup table id = some nodes ∧
      (id ∈ nodes.map NodeInfo.id <-> id ∈ ids) := by
  have simulates : forall table ids call, Represents own kSize table ids ->
      Exists fun table' => Exists fun ids' => Exists fun answer =>
        Bucket.perform table call = some (table', answer) ∧ some (eagerPerform own kSize ids call) = some (ids', answer) ∧
        Represents own kSize table' ids' := fun _ _ call represents => perform_simulates roomForTwo represents call
  have start : Represents own kSize (Bucket.root own kSize) ∅ := ⟨Live.root own kSize, rfl⟩
  rcases PartialRun.replies_simulation simulates calls start with ⟨table, ids, answers, performed, specified, live, rfl⟩
  rcases lookup_bounds live id with ⟨nodes, found, _⟩
  refine ⟨table, _, answers, nodes, performed, specified, found, ?_⟩
  rw [List.mem_toFinset]
  constructor
  · intro listed
    rcases List.mem_map.mp listed with ⟨node, member, rfl⟩
    exact List.mem_map_of_mem (Bucket.mem_stored_of_lookup found node member)
  · intro stored
    rcases List.mem_map.mp stored with ⟨node, member, rfl⟩
    rcases live.mem_lookup (sharesPrefix_zero own node.id) member (Or.inl rfl) with ⟨same, foundToo, listed⟩
    rw [found, Option.some.injEq] at foundToo
    exact List.mem_map_of_mem (foundToo ▸ listed)

open SplitTable in
/-- The contact behind the split is in the eager table, since the lookup lists it. -/
theorem lookup_finds_iff_split : Exists fun ids =>
    eagerPerformAll .min 2 calls = some (ids, answers) ∧
      Bucket.lookup table nearToo.id = some [near, nearToo] ∧ nearToo.id ∈ ids := by
  rcases lookup_finds_iff .min 2 (by decide) calls nearToo.id with
    ⟨reached, ids, returned, nodes, performed, specified, found, listed⟩
  cases built.symm.trans performed
  have looked : Bucket.lookup table nearToo.id = some [near, nearToo] := by
    decide +kernel
  cases looked.symm.trans found
  exact ⟨ids, specified, looked, listed.mp (by decide +kernel)⟩

end DhtExplorer
