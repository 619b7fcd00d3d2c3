import DhtExplorer.TableRuns

namespace DhtExplorer

/-!
# What a lookup returns

A lookup descends into the next bucket before it takes from its own when the id
does not belong here, and fills what is left from the next bucket in any case.
So it may ask the next bucket twice.  The second time is harmless while the
first one and the bucket itself already fill the answer.  After removals they
need not, and the contacts behind the bucket are then returned again.

The condition below names these tables and ids exactly.  In all other cases the
answer has as many contacts as it can have, each of them once.
-/

namespace Bucket

/-- The contacts that a lookup takes before it asks again behind the bucket at the
given depth: those at that depth or behind it, and those of the buckets in front
that the id belongs to. -/
def reachedBefore (table : Chain) (id : U160) (depth : Nat) : Nat :=
  (stored ((table.take depth).filter fun bucket => bucket.idBelongsHere id)).length +
    (stored (table.drop depth)).length

/-- A bucket is passed in front of some contacts, and the answer still has room
when it is passed again. -/
def RepeatsWithin (room : Nat) (table : Chain) (id : U160) : Prop :=
  Exists fun depth => Exists fun self : Bucket => table[depth]? = some self ∧
    self.idBelongsHere id = false ∧ stored (table.drop (depth + 1)) ≠ [] ∧
    reachedBefore table id depth < room

def LookupRepeats (kSize : UInt8) (table : Chain) (id : U160) : Prop :=
  RepeatsWithin kSize.toNat table id

/-- The answer for an inner bucket, from what the lookup behind it returns. -/
def fill (room : Nat) (front nodes behind : List NodeInfo) : List NodeInfo :=
  front ++ nodes.take (room - front.length) ++
    behind.take (room - (front ++ nodes.take (room - front.length)).length)

variable {self : Bucket} {next table : Chain} {id : U160} {room : Nat}

/-! ## The condition, bucket by bucket -/

theorem not_repeatsWithin_last : ¬RepeatsWithin room [self] id := by
  rintro ⟨depth, bucket, _, _, behind, _⟩
  apply behind
  cases depth <;> rfl

theorem repeatsWithin_of_belongs (belongs : self.idBelongsHere id = true) :
    RepeatsWithin room (self :: next) id <-> RepeatsWithin (room - self.nodes.length) next id := by
  have shifted : forall depth, reachedBefore (self :: next) id (depth + 1) =
      self.nodes.length + reachedBefore next id depth := by
    intro depth
    rw [reachedBefore, reachedBefore, List.take_succ_cons, List.filter_cons, if_pos belongs, stored_cons,
      List.length_append, List.drop_succ_cons, Nat.add_assoc]
  constructor
  · rintro ⟨depth, bucket, found, passes, behind, reached⟩
    cases depth with
    | zero =>
        cases found
        rw [belongs] at passes
        cases passes
    | succ depth =>
        rw [shifted] at reached
        exact ⟨depth, bucket, found, passes, behind, by omega⟩
  · rintro ⟨depth, bucket, found, passes, behind, reached⟩
    refine ⟨depth + 1, bucket, found, passes, behind, ?_⟩
    rw [shifted]
    omega

theorem repeatsWithin_of_passes (passes : self.idBelongsHere id = false) :
    RepeatsWithin room (self :: next) id <->
      (stored next ≠ [] ∧ (stored (self :: next)).length < room) ∨ RepeatsWithin room next id := by
  have shifted : forall depth, reachedBefore (self :: next) id (depth + 1) = reachedBefore next id depth := by
    intro depth
    rw [reachedBefore, reachedBefore, List.take_succ_cons, List.filter_cons, passes,
      if_neg Bool.false_ne_true, List.drop_succ_cons]
  have here : reachedBefore (self :: next) id 0 = (stored (self :: next)).length := Nat.zero_add _
  constructor
  · rintro ⟨depth, bucket, found, leaves, behind, reached⟩
    cases depth with
    | zero =>
        rw [here] at reached
        exact Or.inl ⟨behind, reached⟩
    | succ depth =>
        rw [shifted] at reached
        exact Or.inr ⟨depth, bucket, found, leaves, behind, reached⟩
  · rintro (⟨behind, reached⟩ | ⟨depth, bucket, found, leaves, behind, reached⟩)
    · exact ⟨0, self, rfl, passes, behind, here ▸ reached⟩
    · exact ⟨depth + 1, bucket, found, leaves, behind, (shifted depth).symm ▸ reached⟩

end Bucket

/-! ## One bucket of the answer -/

variable {own : U160} {kSize : UInt8} {depth : Nat} {self : Bucket} {next chain : Chain} {id : U160}

theorem lookup_last (placed : Placed own kSize depth self) (id : U160) :
    Bucket.lookup [self] id = some self.nodes := by
  have all : self.nodes.take kSize.toNat = self.nodes := List.take_of_length_le placed.length_le
  by_cases room : 0 < kSize.toNat
  · simp [Bucket.lookup, placed.kSize_eq, room, all]
  · have empty : self.nodes = [] := List.length_eq_zero_iff.mp (by have bound := placed.length_le; omega)
    simp [Bucket.lookup, placed.kSize_eq, empty]

theorem lookup_split (placed : Placed own kSize depth self) (nonempty : next ≠ []) {behind : List NodeInfo}
    (found : Bucket.lookup next id = some behind) (bound : behind.length ≤ kSize.toNat) :
    Bucket.lookup (self :: next) id =
      some (Bucket.fill kSize.toNat (if self.idBelongsHere id = true then [] else behind) self.nodes behind) := by
  have guarded : forall (room : Nat) (front more : List NodeInfo),
      (if 0 < room then front ++ more.take room else front) = front ++ more.take room := by
    intro room front more
    split
    · rfl
    · rename_i full
      rw [Nat.eq_zero_of_not_pos full, List.take_zero, List.append_nil]
  have notEmpty : next.isEmpty = false := Bool.eq_false_iff.mpr fun empty => nonempty (List.isEmpty_iff.mp empty)
  have topUp : forall front : List NodeInfo,
      (if 0 < kSize.toNat - front.length then some (front ++ behind.take (kSize.toNat - front.length))
        else some front) = some (front ++ behind.take (kSize.toNat - front.length)) := by
    intro front
    rw [<- guarded]
    split <;> rfl
  rw [Bucket.lookup, placed.kSize_eq, notEmpty]
  cases belongs : self.idBelongsHere id with
  | true =>
      have empty : ¬kSize.toNat < ([] : List NodeInfo).length := Nat.not_lt_zero _
      simp only [Bool.not_true, Bool.not_false, Bool.and_false, Bool.and_true, Bool.false_eq_true, if_false, if_true,
        found, Option.bind_eq_bind, Option.bind_some, if_neg empty, guarded, decide_eq_true_eq]
      exact topUp _
  | false =>
      simp only [Bool.not_false, Bool.and_true, Bool.false_eq_true, if_false, if_true, found, Option.bind_eq_bind,
        Option.bind_some, if_neg (Nat.not_lt.mpr bound), guarded, decide_eq_true_eq]
      exact topUp _

/-- Whatever is in front, a lookup adds stored contacts only. -/
private theorem Bucket.mem_stored_of_filled {self : Bucket} {next : Chain} {front nodes : List NodeInfo}
    {behind : Option (List NodeInfo)} (frontStored : forall node, node ∈ front -> node ∈ Bucket.stored (self :: next))
    (behindStored : forall later, behind = some later -> forall node, node ∈ later -> node ∈ Bucket.stored next)
    (filled : (if self.kSize.toNat < front.length then none
      else
        let gap := self.kSize.toNat - front.length
        let kNearest := if 0 < gap then front ++ self.nodes.take gap else front
        let gap := self.kSize.toNat - kNearest.length
        if (decide (0 < gap) && !next.isEmpty) = true then do
          let behind ← behind
          some (kNearest ++ behind.take gap)
        else some kNearest) = some nodes) :
    forall node, node ∈ nodes -> node ∈ Bucket.stored (self :: next) := by
  have keptStored : forall (room : Nat) (node : NodeInfo),
      node ∈ (if 0 < room then front ++ self.nodes.take room else front) -> node ∈ Bucket.stored (self :: next) := by
    intro room node member
    split at member
    · rcases List.mem_append.mp member with before | here
      · exact frontStored node before
      · exact List.mem_append_left _ (List.mem_of_mem_take here)
    · exact frontStored node member
  split at filled
  · cases filled
  · dsimp only at filled
    have kept := keptStored (self.kSize.toNat - front.length)
    generalize (if 0 < self.kSize.toNat - front.length then _ else front : List NodeInfo) = kNearest at filled kept
    split at filled
    · rcases Option.bind_eq_some_iff.mp filled with ⟨later, found, same⟩
      cases same
      intro node member
      rcases List.mem_append.mp member with before | again
      · exact kept node before
      · exact List.mem_append_right _ (behindStored later found node (List.mem_of_mem_take again))
    · cases filled
      exact kept

/-- A lookup finds nothing but stored contacts, whatever the table looks like. -/
theorem Bucket.mem_stored_of_lookup {chain : Chain} {id : U160} {nodes : List NodeInfo}
    (found : Bucket.lookup chain id = some nodes) : forall node, node ∈ nodes -> node ∈ Bucket.stored chain := by
  induction chain generalizing nodes with
  | nil => cases found
  | cons self next ih =>
      have behindStored : forall later, Bucket.lookup next id = some later ->
          forall node, node ∈ later -> node ∈ Bucket.stored next := fun _ later => ih later
      rw [Bucket.lookup] at found
      split at found
      · rcases Option.bind_eq_some_iff.mp found with ⟨front, frontFound, filled⟩
        exact Bucket.mem_stored_of_filled
          (fun node member => List.mem_append_right _ (ih frontFound node member)) behindStored filled
      · exact Bucket.mem_stored_of_filled (fun _ member => absurd member List.not_mem_nil) behindStored found

/-- The length of a lookup is the same for every table and id up to repetitions:
it is not too long, and as long as there are contacts. -/
theorem lookup_bounds (live : Live own kSize depth chain) (id : U160) :
    Exists fun nodes => Bucket.lookup chain id = some nodes ∧ nodes.length ≤ kSize.toNat ∧
      min kSize.toNat (Bucket.stored chain).length ≤ nodes.length := by
  induction live with
  | @last depth self placed =>
      refine ⟨self.nodes, lookup_last placed id, placed.length_le, ?_⟩
      rw [Bucket.stored_cons, Bucket.stored_nil, List.append_nil]
      exact Nat.min_le_right _ _
  | @split depth self next placed _ behind ih =>
      rcases ih with ⟨later, found, bound, many⟩
      refine ⟨_, lookup_split placed behind.nonempty found bound, ?_, ?_⟩
      · simp only [Bucket.fill, List.length_append, List.length_take]
        split <;> grind
      · simp only [Bucket.fill, Bucket.stored_cons, List.length_append, List.length_take]
        have own := placed.length_le
        split <;> grind

/-! ## When the answer repeats contacts -/

/-- The answer of a bucket that the id belongs to. -/
private theorem fill_take_of_belongs {limit room : Nat} {nodes behind : List NodeInfo}
    (fits : nodes.length ≤ limit) (within : room ≤ limit) :
    (Bucket.fill limit [] nodes behind).take room = nodes.take room ++ behind.take (room - nodes.length) := by
  have all : nodes.take limit = nodes := List.take_of_length_le fits
  rw [Bucket.fill, List.length_nil, Nat.sub_zero, List.nil_append, all, List.take_append, List.take_take,
    Nat.min_eq_left (Nat.sub_le_sub_right within _)]

/-- The answer of a bucket that is passed, up to the room it is needed for. -/
private theorem fill_take_of_passes {limit room : Nat} {nodes behind : List NodeInfo} (within : room ≤ limit) :
    (Bucket.fill limit behind nodes behind).take room =
      behind.take room ++ nodes.take (room - behind.length) ++
        behind.take (room - behind.length - nodes.length) := by
  simp only [Bucket.fill, List.take_append, List.take_take, List.length_append, List.length_take]
  congr 2
  · congr 1
    omega
  · omega

/-- Asking twice is harmless when what is stored fills the room. -/
private theorem nodup_take_twice {limit room : Nat} {own behind stored : List NodeInfo} (within : room ≤ limit)
    (many : min limit stored.length ≤ behind.length) (subset : forall node, node ∈ behind -> node ∈ stored)
    (unique : (own ++ stored).Nodup) :
    (behind.take room ++ own.take (room - behind.length) ++
        behind.take (room - behind.length - own.length)).Nodup <->
      ¬(stored ≠ [] ∧ own.length + stored.length < room) ∧ (behind.take room).Nodup := by
  have few : (behind.take room).Nodup -> min room behind.length ≤ stored.length := by
    intro once
    have bound := (once.subperm fun node member => subset node (List.mem_of_mem_take member)).length_le
    rwa [List.length_take] at bound
  constructor
  · intro once
    have front := (List.nodup_append.mp once).1
    have behindOnce := (List.nodup_append.mp front).1
    refine ⟨?_, behindOnce⟩
    rintro ⟨nonempty, roomLeft⟩
    have positive : 0 < stored.length := List.length_pos_iff.mpr nonempty
    have bound := few behindOnce
    cases behind with
    | nil =>
        rw [List.length_nil] at many
        omega
    | cons first rest =>
        -- The first contact is asked for again, since there is still room.
        have roomTwice : 0 < room - (first :: rest).length - own.length := by omega
        refine (List.nodup_append.mp once).2.2 first ?_ first ?_ rfl
        · apply List.mem_append_left _
          rw [List.take_cons (by omega)]
          exact List.mem_cons_self
        · rw [List.take_cons roomTwice]
          exact List.mem_cons_self
  · rintro ⟨fills, behindOnce⟩
    have bound := few behindOnce
    have last : behind.take (room - behind.length - own.length) = [] := by
      by_cases empty : stored = []
      · have nothing : behind = [] :=
          List.eq_nil_iff_forall_not_mem.mpr fun node member => List.not_mem_nil (empty ▸ subset node member)
        rw [nothing, List.take_nil]
      · have full : ¬own.length + stored.length < room := fun roomLeft => fills ⟨empty, roomLeft⟩
        have none : room - behind.length - own.length = 0 := by omega
        rw [none, List.take_zero]
    rw [last, List.append_nil, List.nodup_append]
    refine ⟨behindOnce, (List.nodup_append.mp unique).1.sublist (List.take_sublist _ _), ?_⟩
    rintro node back other here rfl
    exact (List.nodup_append.mp unique).2.2 node (List.mem_of_mem_take here) node
      (subset node (List.mem_of_mem_take back)) rfl

theorem Live.nodup_stored (live : Live own kSize depth chain) : (Bucket.stored chain).Nodup :=
  live.nodup.of_map _

/-- A part of an answer has no contact twice exactly when it has no room for the
contacts that are asked for twice. -/
theorem lookup_take_nodup (live : Live own kSize depth chain) (id : U160) {nodes : List NodeInfo}
    (found : Bucket.lookup chain id = some nodes) {room : Nat} (within : room ≤ kSize.toNat) :
    (nodes.take room).Nodup <-> ¬Bucket.RepeatsWithin room chain id := by
  induction live generalizing nodes room with
  | @last depth self placed =>
      rw [lookup_last placed id, Option.some.injEq] at found
      subst found
      exact ⟨fun _ => Bucket.not_repeatsWithin_last, fun _ => (placed.nodup.of_map _).sublist (List.take_sublist _ _)⟩
  | @split depth self next placed differs behind ih =>
      rcases lookup_bounds behind id with ⟨later, laterFound, bound, many⟩
      have stored := Bucket.mem_stored_of_lookup laterFound
      have unique : (self.nodes ++ Bucket.stored next).Nodup := (Live.split placed differs behind).nodup_stored
      have here : (self.nodes).Nodup := (List.nodup_append.mp unique).1
      have apart : forall node, node ∈ self.nodes -> node ∉ Bucket.stored next :=
        fun node own back => (List.nodup_append.mp unique).2.2 node own node back rfl
      rw [lookup_split placed behind.nonempty laterFound bound, Option.some.injEq] at found
      subst found
      cases belongs : self.idBelongsHere id with
      | true =>
          rw [if_pos rfl, fill_take_of_belongs placed.length_le within, Bucket.repeatsWithin_of_belongs belongs,
            <- ih laterFound (Nat.le_trans (Nat.sub_le _ _) within), List.nodup_append]
          constructor
          · exact fun parts => parts.2.1
          · intro rest
            refine ⟨here.sublist (List.take_sublist _ _), rest, ?_⟩
            rintro node own other back rfl
            exact apart node (List.mem_of_mem_take own) (stored node (List.mem_of_mem_take back))
      | false =>
          rw [if_neg Bool.false_ne_true, fill_take_of_passes within, Bucket.repeatsWithin_of_passes belongs, not_or,
            <- ih laterFound within, Bucket.stored_cons, List.length_append]
          exact nodup_take_twice within many stored unique

/-- After any calls, every lookup succeeds.  It returns as many contacts as it can,
all of them stored and none of them twice, exactly when the id passes no bucket
in front of contacts that the answer has room for twice. -/
theorem lookup_exact_iff (own : U160) (kSize : UInt8) (calls : List TableCall) :
    Exists fun table => Exists fun answers => Bucket.performAll own kSize calls = some (table, answers) ∧
      forall id, Exists fun nodes => Bucket.lookup table id = some nodes ∧
        ((nodes.length = min kSize.toNat (Bucket.stored table).length ∧
          (forall node, node ∈ nodes -> node ∈ Bucket.stored table) ∧ (nodes.map NodeInfo.id).Nodup) <->
          ¬Bucket.LookupRepeats kSize table id) := by
  rcases performAll_live own kSize calls with ⟨table, answers, performed, live⟩
  refine ⟨table, answers, performed, fun id => ?_⟩
  rcases lookup_bounds live id with ⟨nodes, found, bound, many⟩
  have stored := Bucket.mem_stored_of_lookup found
  refine ⟨nodes, found, ?_⟩
  have repeats := lookup_take_nodup live id found (Nat.le_refl kSize.toNat)
  rw [List.take_of_length_le bound] at repeats
  rw [Bucket.LookupRepeats, <- repeats]
  constructor
  · exact fun exact => exact.2.2.of_map _
  · intro once
    refine ⟨Nat.le_antisymm ?_ many, stored, ?_⟩
    · exact Nat.le_min.mpr ⟨bound, (once.subperm stored).length_le⟩
    · apply once.map_on
      intro first firstMember second secondMember same
      exact List.inj_on_of_nodup_map live.nodup (stored first firstMember) (stored second secondMember) same

namespace RepeatedLookup

def addr : SocketAddr := .v4 0x7f000001 1337

/-- Belongs to the first bucket of a table around the id zero. -/
def far : NodeInfo := ⟨.new 0x80000000000000000000000000000000 0, addr⟩

/-- These two belong to the second bucket. -/
def near : NodeInfo := ⟨.new 0x40000000000000000000000000000000 0, addr⟩
def nearToo : NodeInfo := ⟨.new 0x40000000000000000000000000000000 1, addr⟩

/-- The third contact splits the table, and the removals leave one contact behind
the first bucket. -/
def calls : List TableCall :=
  [.add far, .add near, .add nearToo, .remove far.id, .remove nearToo.id]

def table : Chain := [⟨U160.min, 0, 2, []⟩, ⟨U160.min, 1, 2, [near]⟩]

end RepeatedLookup

/-- The only contact of the table is returned twice. -/
theorem lookup_returns_twice :
    (Bucket.performAll U160.min 2 RepeatedLookup.calls).map Prod.fst = some RepeatedLookup.table ∧
      Bucket.stored RepeatedLookup.table = [RepeatedLookup.near] ∧
      Bucket.lookup RepeatedLookup.table U160.min = some [RepeatedLookup.near, RepeatedLookup.near] := by
  decide +kernel

end DhtExplorer
