import DhtExplorer.LookupCall
import DhtExplorer.Router
import DhtExplorer.XorMetric

namespace DhtExplorer

/-!
# What a lookup costs

Every bucket that asks the next one twice doubles the steps.  A table with eight
contacts near the own id is as deep as their common prefix, and once they are removed
nothing keeps a lookup of the own id from asking twice in every bucket.
-/

variable {own : U160} {kSize : UInt8} {depth : Nat} {self : Bucket} {chain chain' : Chain} {node : NodeInfo} {id : U160}

namespace Bucket

theorem lookupSteps_le (chain : Chain) (id : U160) : lookupSteps chain id + 4 ≤ 2 ^ (chain.length + 2) := by
  induction chain with
  | nil => exact Nat.le_refl 4
  | cons self next ih =>
      have power : 2 ^ ((self :: next).length + 2) = 2 * 2 ^ (next.length + 2) := by
        rw [List.length_cons, <- Nat.pow_succ']
      rw [lookupSteps, power]
      split <;> split <;> omega

/-- Every bucket is empty, has room, and passes the id on. -/
def Hollow (id : U160) (chain : Chain) : Prop :=
  forall bucket, bucket ∈ chain -> bucket.nodes = [] ∧ 0 < bucket.kSize.toNat ∧ bucket.idBelongsHere id = false

theorem Hollow.lookup (hollow : Hollow id chain) (nonempty : chain ≠ []) : Bucket.lookup chain id = some [] := by
  induction chain with
  | nil => exact absurd rfl nonempty
  | cons self next ih =>
      rcases hollow self List.mem_cons_self with ⟨empty, room, passes⟩
      cases next with
      | nil => simp [Bucket.lookup, empty]
      | cons second rest =>
          have behind := ih (fun bucket member => hollow bucket (List.mem_cons_of_mem _ member)) (List.cons_ne_nil _ _)
          rw [Bucket.lookup, passes, behind]
          simp [empty]

theorem Hollow.lookupSteps_eq (hollow : Hollow id chain) : lookupSteps chain id + 4 = 2 ^ (chain.length + 2) := by
  induction chain with
  | nil => rfl
  | cons self next ih =>
      rcases hollow self List.mem_cons_self with ⟨empty, room, passes⟩
      have behind := fun bucket member => hollow bucket (List.mem_cons_of_mem self member)
      have power : 2 ^ ((self :: next).length + 2) = 2 * 2 ^ (next.length + 2) := by
        rw [List.length_cons, <- Nat.pow_succ']
      have steps := ih behind
      cases next with
      | nil =>
          have first : self.asksFirst [] id = false := rfl
          have again : self.asksAgain [] id = false := Bool.and_false _
          rw [lookupSteps, first, again, power]
          rfl
      | cons second rest =>
          have first : self.asksFirst (second :: rest) id = true := by
            rw [asksFirst, passes]
            rfl
          have nothing : self.front (second :: rest) id = [] := by
            rw [front, if_pos first, Hollow.lookup behind (List.cons_ne_nil _ _)]
            rfl
          have again : self.asksAgain (second :: rest) id = true := by
            rw [asksAgain, nothing, filled, empty]
            simpa using room
          rw [lookupSteps, first, again, power]
          simp only [if_true]
          omega

end Bucket

/-! ## A deep table with nothing in it -/

theorem length_remove {found : Bool} (removed : Bucket.remove chain id = some (chain', found)) :
    chain'.length = chain.length := by
  induction chain generalizing chain' with
  | nil => cases removed
  | cons self next ih =>
      rw [Bucket.remove] at removed
      split at removed
      · split at removed <;> cases removed <;> rfl
      · rcases Option.map_eq_some_iff.mp removed with ⟨⟨behind, flag⟩, there, same⟩
        cases same
        rw [List.length_cons, List.length_cons, ih there]

theorem Added.no_shorter (added : Added node chain chain') : chain.length ≤ chain'.length := by
  induction added with
  | stored _ => exact Nat.le_refl _
  | refused _ _ => exact Nat.le_refl _
  | here _ _ => exact Nat.le_refl _
  | further _ _ _ ih => exact Nat.succ_le_succ ih
  | split _ _ _ ih => exact (Nat.le_succ 1).trans ih

/-- A full bucket whose contacts share a prefix with the own id is split until that
prefix is used up. -/
theorem Added.deep {n : Nat} (added : Added node [self] chain') (placed : Placed own kSize depth self)
    (full : self.nodes.length = kSize.toNat) (shallow : depth ≤ n) (bounded : n ≤ 158)
    (shares : forall stored, stored ∈ self.nodes -> SharesPrefix own stored.id n) (near : SharesPrefix own node.id n) :
    n + 2 ≤ depth + chain'.length := by
  induction distance : n - depth generalizing depth self chain' with
  | zero =>
      have here : depth = n := by omega
      cases added with
      | stored room =>
          rw [placed.kSize_eq, full] at room
          exact absurd room (Nat.lt_irrefl _)
      | refused deepest _ =>
          have index := placed.bucketIndex_eq
          rw [deepest] at index
          change 159 = depth at index
          omega
      | here nonempty _ => exact absurd rfl nonempty
      | further nonempty _ _ => exact absurd rfl nonempty
      | split _ _ routed =>
          have longer := routed.no_shorter
          change 2 ≤ _ at longer
          omega
  | succ rest ih =>
      have before : depth < n := by omega
      have passes : forall stored : NodeInfo, SharesPrefix own stored.id n -> self.belongsHere stored = false := by
        intro stored along
        rw [Bool.eq_false_iff]
        exact fun belongs => placed.belongsHere_iff.mp belongs (along depth before)
      cases added with
      | stored room =>
          rw [placed.kSize_eq, full] at room
          exact absurd room (Nat.lt_irrefl _)
      | refused deepest _ =>
          have index := placed.bucketIndex_eq
          rw [deepest] at index
          change 159 = depth at index
          omega
      | here nonempty _ => exact absurd rfl nonempty
      | further nonempty _ _ => exact absurd rfl nonempty
      | split notDeepest _ routed =>
          have below : depth < 159 := placed.shallow notDeepest
          have live := placed.divided below
          have kept : self.sifted.1 = [] := by
            rw [List.eq_nil_iff_forall_not_mem]
            intro stored member
            have belongs := (VecOps.sift_tests self.belongsHere self.nodes.length self.nodes).1 stored member
            have inside := self.sifted_perm.mem_iff.mp (List.mem_append_left _ member)
            rw [passes stored (shares stored inside)] at belongs
            cases belongs
          have moved : self.sifted.2.Perm self.nodes := by
            have perm := self.sifted_perm
            rwa [kept, List.nil_append] at perm
          have child : Placed own kSize (depth + 1) { self.child with nodes := self.sifted.2 } :=
            (live.uncons (List.cons_ne_nil _ _)).2.2.last_placed
          cases routed with
          | here _ belongs =>
              have leaves : self.belongsHere node = true := belongs
              rw [passes node near] at leaves
              cases leaves
          | further _ _ behind =>
              have deeper := ih behind child (moved.length_eq.trans full) before
                (fun stored member => shares stored (moved.mem_iff.mp member)) (by omega)
              rw [List.length_cons]
              omega

/-! ## The calls that make it -/

/-- A last bucket takes new contacts one after another while it has room. -/
theorem adds_with_room (nodes : List NodeInfo) (fits : (self.nodes ++ nodes).length ≤ self.kSize.toNat)
    (nodup : ((self.nodes ++ nodes).map NodeInfo.id).Nodup) :
    Exists fun answers => PartialRun.replies Bucket.perform [self] (nodes.map TableCall.add) =
      some ([{ self with nodes := self.nodes ++ nodes }], answers) := by
  induction nodes generalizing self with
  | nil => exact ⟨[], by rw [List.append_nil]; rfl⟩
  | cons node rest ih =>
      have room : self.nodes.length < self.kSize.toNat := by
        rw [List.length_append, List.length_cons] at fits
        omega
      have absent : node.id ∉ self.nodes.map NodeInfo.id := by
        rw [List.map_append, List.map_cons] at nodup
        exact fun member => List.disjoint_of_nodup_append nodup member List.mem_cons_self
      have added : Bucket.add [self] node = some [self.addOrUpdate node] :=
        addWithin_appendsWhileRoom 255 self node room
      rw [Bucket.addOrUpdate_of_room absent room] at added
      have together : self.nodes ++ node :: rest = (self.nodes ++ [node]) ++ rest := by
        rw [List.append_assoc, List.singleton_append]
      rw [together] at fits nodup ⊢
      have others : Exists fun answers =>
          PartialRun.replies Bucket.perform [{ self with nodes := self.nodes ++ [node] }] (rest.map TableCall.add) =
            some ([{ self with nodes := (self.nodes ++ [node]) ++ rest }], answers) := ih fits nodup
      rcases others with ⟨answers, later⟩
      refine ⟨none :: answers, PartialRun.replies_cons_eq_some.mpr ⟨_, none, answers, ?_, later, rfl⟩⟩
      rw [Bucket.perform, added]
      rfl

/-- Removing ids leaves the buckets where they are, and the other ids. -/
theorem removes (live : Live own kSize 0 chain) (ids : List U160) :
    Exists fun final => Exists fun answers =>
      PartialRun.replies Bucket.perform chain (ids.map TableCall.remove) = some (final, answers) ∧
      Live own kSize 0 final ∧ final.length = chain.length ∧
      forall id, id ∈ Bucket.storedIds final -> id ∈ Bucket.storedIds chain ∧ id ∉ ids := by
  induction ids generalizing chain with
  | nil => exact ⟨chain, [], rfl, live, rfl, fun id member => ⟨member, List.not_mem_nil⟩⟩
  | cons removed rest ih =>
      rcases remove_spec live (sharesPrefix_zero own removed) with ⟨next, erased, nextLive, left⟩
      rcases ih nextLive with ⟨final, answers, later, finalLive, sameLength, others⟩
      refine ⟨final, _,
        PartialRun.replies_cons_eq_some.mpr ⟨next, _, answers, by rw [Bucket.perform, erased]; rfl, later, rfl⟩,
        finalLive, sameLength.trans (length_remove erased), fun id member => ?_⟩
      rcases others id member with ⟨inNext, notLater⟩
      rw [left, live.nodup.mem_erase_iff] at inNext
      refine ⟨inNext.2, fun listed => ?_⟩
      rcases List.mem_cons.mp listed with same | later
      · exact inNext.1 same
      · exact notLater later

/-- The numbers one to eight as distances. -/
def crowdDistance (number : Nat) : U160 := .new 0 (BitVec.ofNat 32 (number + 1))

/-- Eight contacts next to the own id. -/
def crowd (own : U160) : List NodeInfo :=
  (List.range 8).map fun number => ⟨own.distance (crowdDistance number), .v4 0 0⟩

/-- The first of them once more, which finds the bucket full. -/
def again (own : U160) : NodeInfo := ⟨own.distance (crowdDistance 0), .v4 0 0⟩

def crowdCalls (own : U160) : List TableCall :=
  (crowd own).map TableCall.add ++ [.add (again own)] ++ ((crowd own).map NodeInfo.id).map TableCall.remove

theorem crowdDistance_bits (number : Nat) (small : number < 8) (index : Nat) (high : index < 156) :
    (crowdDistance number).getBit index = false := by
  have all : forall number, number < 8 -> forall index, index < 156 -> (crowdDistance number).getBit index = false := by
    decide +kernel
  exact all number small index high

theorem shares_distance (own : U160) (number : Nat) (small : number < 8) {n : Nat} (shallow : n ≤ 156) :
    SharesPrefix own (own.distance (crowdDistance number)) n := by
  intro index before
  rw [U160.getBit_distance, crowdDistance_bits number small index (Nat.lt_of_lt_of_le before shallow), Bool.xor_false]

theorem nodup_crowd (own : U160) : ((crowd own).map NodeInfo.id).Nodup := by
  have distances : ((List.range 8).map crowdDistance).Nodup := by
    decide +kernel
  have ids : (crowd own).map NodeInfo.id = ((List.range 8).map crowdDistance).map own.distance := by
    rw [crowd, List.map_map, List.map_map]
    rfl
  rw [ids]
  refine distances.map fun first second same => ?_
  rw [<- U160.distance_distance own first, same, U160.distance_distance]

theorem mem_crowd {own : U160} {node : NodeInfo} (member : node ∈ crowd own) :
    Exists fun number => number < 8 ∧ node.id = own.distance (crowdDistance number) := by
  rcases List.mem_map.mp member with ⟨number, inside, rfl⟩
  exact ⟨number, List.mem_range.mp inside, rfl⟩

/-- The bucket that the eight contacts fill. -/
def crowded (own : U160) : Bucket := ⟨own, 0, K_SIZE, crowd own⟩

theorem placed_crowded (own : U160) : Placed own K_SIZE 0 (crowded own) :=
  ⟨rfl, rfl, rfl, Nat.zero_le _, le_refl 8, fun node _ => sharesPrefix_zero own node.id, nodup_crowd own⟩

/-- After the first nine calls the table is deep and holds the eight contacts. -/
theorem deep_crowd (own : U160) : Exists fun table => Exists fun answers =>
    PartialRun.replies Bucket.perform (Bucket.root own K_SIZE)
        ((crowd own).map TableCall.add ++ [.add (again own)]) = some (table, answers) ∧
      Live own K_SIZE 0 table ∧ 158 ≤ table.length ∧
      forall id, id ∈ Bucket.storedIds table -> id ∈ (crowd own).map NodeInfo.id := by
  have filled : Exists fun answers => PartialRun.replies Bucket.perform (Bucket.root own K_SIZE)
      ((crowd own).map TableCall.add) = some ([crowded own], answers) :=
    adds_with_room (crowd own) (le_refl 8) (nodup_crowd own)
  rcases filled with ⟨answers, filled⟩
  rcases add_spec (.last (placed_crowded own)) (again own) with ⟨table, taken, _, live, outcome⟩
  refine ⟨table, answers ++ [none], PartialRun.replies_append filled ?_, live, ?_, fun id member => ?_⟩
  · refine PartialRun.replies_cons_eq_some.mpr ⟨table, none, [], ?_, rfl, rfl⟩
    rw [Bucket.perform, taken]
    rfl
  · have deep := ((Live.last (placed_crowded own)).added taken).deep (placed_crowded own) rfl (Nat.zero_le 156) (by decide)
      (fun stored member => ?_) (shares_distance own 0 (by decide) (le_refl 156))
    · omega
    · rcases mem_crowd member with ⟨number, small, same⟩
      exact same ▸ shares_distance own number small (le_refl 156)
  · have before : (Bucket.stored [crowded own]).map NodeInfo.id = (crowd own).map NodeInfo.id := by
      rw [Bucket.stored_cons, Bucket.stored_nil, List.append_nil]
      rfl
    have known : (again own).id ∈ (crowd own).map NodeInfo.id :=
      List.mem_map_of_mem (List.mem_map_of_mem (List.mem_range.mpr (by decide)))
    rw [<- before] at known ⊢
    cases outcome with
    | known _ perm => exact (perm.map NodeInfo.id).mem_iff.mp member
    | kept absent _ _ => exact absurd known absent
    | refused absent _ _ => exact absurd known absent

/-- All calls together leave a table that is deep and hollow. -/
theorem hollow_crowdCalls (own : U160) : Exists fun table => Exists fun answers =>
    Bucket.performAll own K_SIZE (crowdCalls own) = some (table, answers) ∧ 158 ≤ table.length ∧
      Bucket.Hollow own table := by
  rcases deep_crowd own with ⟨table, answers, added, live, deep, stored⟩
  rcases removes live ((crowd own).map NodeInfo.id) with ⟨final, later, removed, finalLive, sameLength, left⟩
  refine ⟨final, _, PartialRun.replies_append added removed, sameLength ▸ deep, fun bucket member => ?_⟩
  rcases List.getElem?_of_mem member with ⟨depth, found⟩
  have placed := (finalLive.placed found).1
  refine ⟨?_, ?_, ?_⟩
  · rw [List.eq_nil_iff_forall_not_mem]
    intro node inside
    have id : node.id ∈ Bucket.storedIds final :=
      List.mem_map_of_mem (List.mem_flatMap.mpr ⟨bucket, member, inside⟩)
    exact (left node.id id).2 (stored node.id (left node.id id).1)
  · rw [placed.kSize_eq]
    decide
  · rw [Bool.eq_false_iff]
    exact fun belongs => placed.idBelongsHere_iff.mp belongs rfl

/-! ## Lookups that run alone -/

namespace LookupCall

variable {table : Chain} {call next final : LookupCall} {locked : Nat -> Bool}

/-- A call with something left to do has no result. -/
theorem pending_advance (pending : call.frames ≠ [] -> call.result = none)
    (stepped : call.advance table locked = some next) : next.frames ≠ [] -> next.result = none := by
  intro unfinished
  unfold advance at stepped
  split at stepped
  · cases stepped
  · rename_i frame callers top
    have result : call.result = none := pending (top ▸ List.cons_ne_nil _ _)
    split at stepped
    · cases stepped
      cases callers with
      | nil => exact absurd rfl unfinished
      | cons caller others => exact result
    · rcases Option.map_eq_some_iff.mp stepped with ⟨frames, _, rfl⟩
      exact result

/-- Before the last step there is no result. -/
theorem alone_before {steps total : Nat} (ran : (start id).alone table total = some final) (before : steps < total) :
    Exists fun call => (start id).alone table steps = some call ∧ call.result = none := by
  have split : total = steps + (total - steps - 1 + 1) := by omega
  rw [alone, split, List.replicate_add] at ran
  rcases PartialRun.run_append_eq_some.mp ran with ⟨call, there, later⟩
  rcases PartialRun.run_cons_eq_some.mp later with ⟨next, stepped, _⟩
  have pending : call.frames ≠ [] -> call.result = none :=
    PartialRun.run_invariant (fun _ _ _ pending stepped => pending_advance pending stepped) (fun _ => rfl) there
  refine ⟨call, there, pending fun done => ?_⟩
  rw [advance, done] at stepped
  cases stepped

end LookupCall

/-- On every table, a lookup that nothing interrupts gets the answer of the recursion
after a certain number of steps and not before. -/
theorem lookup_takes (own : U160) (kSize : UInt8) (history : List TableCall) (table : Chain) (answers : List (Option Bool))
    (built : Bucket.performAll own kSize history = some (table, answers)) (id : U160) :
    Exists fun nodes => Bucket.lookup table id = some nodes ∧
      (LookupCall.start id).alone table (Bucket.lookupSteps table id) = some ⟨id, [], some nodes⟩ ∧
      (forall steps, steps < Bucket.lookupSteps table id ->
        Exists fun call => (LookupCall.start id).alone table steps = some call ∧ call.result = none) ∧
      Bucket.lookupSteps table id + 4 ≤ 2 ^ (table.length + 2) := by
  rcases lookup_bounds (live_of_performAll built) id with ⟨nodes, found, _⟩
  have ran := LookupCall.alone_lookup (LookupCall.start id) [] [] found
  exact ⟨nodes, found, ran, fun steps before => LookupCall.alone_before ran before, Bucket.lookupSteps_le table id⟩

open SplitTable in
/-- The first bucket is empty, so the lookup takes what the second one holds. -/
theorem lookup_takes_split :
    (LookupCall.start far.id).alone table 8 = some ⟨far.id, [], some [near, nearToo]⟩ ∧
      forall steps, steps < 8 ->
        Exists fun call => (LookupCall.start far.id).alone table steps = some call ∧ call.result = none := by
  rcases lookup_takes .min 2 calls table answers built far.id with ⟨nodes, found, ran, before, _⟩
  have looked : Bucket.lookup table far.id = some [near, nearToo] := by
    decide +kernel
  have taken : Bucket.lookupSteps table far.id = 8 := by
    decide +kernel
  rw [taken] at ran before
  cases looked.symm.trans found
  exact ⟨ran, before⟩

/-- For every own id, seventeen calls make a table on which a lookup of that id is not
done for as long as the bound allows, which is longer than anyone waits. -/
theorem lookup_blows_up (own : U160) : Exists fun table => Exists fun answers =>
    Bucket.performAll own K_SIZE (crowdCalls own) = some (table, answers) ∧ (crowdCalls own).length = 17 ∧
      Bucket.lookupSteps table own + 4 = 2 ^ (table.length + 2) ∧
      forall steps, steps < 2 ^ 160 - 4 ->
        Exists fun call => (LookupCall.start own).alone table steps = some call ∧ call.result = none := by
  rcases hollow_crowdCalls own with ⟨table, answers, built, deep, hollow⟩
  have count := hollow.lookupSteps_eq
  have found := hollow.lookup (List.ne_nil_of_length_pos (by omega))
  have ran := LookupCall.alone_lookup (LookupCall.start own) [] [] found
  refine ⟨table, answers, built, rfl, count, fun steps before => LookupCall.alone_before ran ?_⟩
  have power : 2 ^ 160 ≤ 2 ^ (table.length + 2) := Nat.pow_le_pow_right (by decide) (by omega)
  change steps < Bucket.lookupSteps table own
  omega

end DhtExplorer
