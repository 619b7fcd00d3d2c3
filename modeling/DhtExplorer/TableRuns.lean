import DhtExplorer.BucketInvariant
import DhtExplorer.Library.CapacityTable
import DhtExplorer.Library.PartialRun

namespace DhtExplorer

/-!
# Runs of calls on one table

The step lemmas about `add` and `remove` are carried to finite sequences of
calls from `root`.  Two readings of a run are proved.  The first is the shape of
every table that is reached, bucket by bucket.  The second forgets the buckets:
the ids in the chain are those of a table with one bounded set of ids for each
length of common prefix, and that table decides every call in the same way.
-/

/-- One call on a table. -/
inductive TableCall where
  | add (node : NodeInfo)
  | remove (id : U160)
deriving DecidableEq, Repr

namespace Bucket

/-- Perform one call.  Only `remove` has an answer. -/
def perform (table : Chain) : TableCall -> Option (Chain × Option Bool)
  | .add node => (add table node).map fun table => (table, none)
  | .remove id => (remove table id).map fun (table, found) => (table, some found)

/-- All calls one after another, from a new table. -/
def performAll (ownId : U160) (kSize : UInt8) (calls : List TableCall) :
    Option (Chain × List (Option Bool)) :=
  PartialRun.replies perform (root ownId kSize) calls

end Bucket

variable {own : U160} {kSize : UInt8}

theorem Live.root (own : U160) (kSize : UInt8) : Live own kSize 0 (Bucket.root own kSize) :=
  .last ⟨rfl, rfl, rfl, Nat.zero_le _, Nat.zero_le _,
    fun _ member => absurd member List.not_mem_nil, List.nodup_nil⟩

/-! ## The shape of a reached table -/

/-- The table read bucket by bucket, without reference to the order in which it
was built. -/
structure WellPlaced (own : U160) (kSize : UInt8) (table : Chain) : Prop where
  bucketIndex_eq : forall (depth : Nat) (bucket : Bucket), table[depth]? = some bucket ->
    bucket.bucketIndex.toNat = depth ∧ depth ≤ 159
  settings_eq : forall (depth : Nat) (bucket : Bucket), table[depth]? = some bucket ->
    bucket.ownId = own ∧ bucket.kSize = kSize
  length_le : forall (depth : Nat) (bucket : Bucket), table[depth]? = some bucket ->
    bucket.nodes.length ≤ kSize.toNat
  shares : forall (depth : Nat) (bucket : Bucket) node, table[depth]? = some bucket -> node ∈ bucket.nodes ->
    SharesPrefix own node.id depth
  differs : forall (depth : Nat) (bucket : Bucket) node, table[depth]? = some bucket -> node ∈ bucket.nodes ->
    depth + 1 < table.length -> own.getBit depth ≠ node.id.getBit depth
  nodup : (Bucket.storedIds table).Nodup

/-- Every bucket of a live chain is placed at its own depth. -/
theorem Live.placed {depth : Nat} {chain : Chain} (live : Live own kSize depth chain)
    {offset : Nat} {bucket : Bucket} (found : chain[offset]? = some bucket) :
    Placed own kSize (depth + offset) bucket ∧
      (offset + 1 < chain.length ->
        forall node, node ∈ bucket.nodes ->
          own.getBit (depth + offset) ≠ node.id.getBit (depth + offset)) := by
  induction live generalizing offset with
  | last placed =>
      cases offset with
      | zero =>
          cases found
          exact ⟨placed, fun longer => absurd longer (Nat.lt_irrefl 1)⟩
      | succ offset => cases found
  | @split depth self next placed differs behind ih =>
      cases offset with
      | zero =>
          cases found
          exact ⟨placed, fun _ => differs⟩
      | succ offset =>
          have behindFound : next[offset]? = some bucket := found
          have later := ih behindFound
          rw [Nat.add_assoc, Nat.add_comm 1 offset] at later
          exact ⟨later.1, fun longer => later.2 (Nat.lt_of_succ_lt_succ longer)⟩

theorem Live.wellPlaced {table : Chain} (live : Live own kSize 0 table) :
    WellPlaced own kSize table := by
  have placed : forall depth bucket, table[depth]? = some bucket -> Placed own kSize depth bucket := by
    intro depth bucket found
    have here := (live.placed found).1
    rwa [Nat.zero_add] at here
  refine ⟨?_, ?_, ?_, ?_, ?_, live.nodup⟩
  · intro depth bucket found
    exact ⟨(placed depth bucket found).bucketIndex_eq, (placed depth bucket found).depth_le⟩
  · intro depth bucket found
    exact ⟨(placed depth bucket found).ownId_eq, (placed depth bucket found).kSize_eq⟩
  · intro depth bucket found
    exact (placed depth bucket found).length_le
  · intro depth bucket node found member
    exact (placed depth bucket found).shares node member
  · intro depth bucket node found member longer
    have differs := (live.placed found).2 longer node member
    rwa [Nat.zero_add] at differs

/-- A chain whose buckets are all placed at their own depths is live. -/
theorem Live.of_placed {depth : Nat} {chain : Chain} (nonempty : chain ≠ [])
    (placed : forall (offset : Nat) (bucket : Bucket), chain[offset]? = some bucket ->
      Placed own kSize (depth + offset) bucket ∧
        (offset + 1 < chain.length ->
          forall node, node ∈ bucket.nodes ->
            own.getBit (depth + offset) ≠ node.id.getBit (depth + offset))) :
    Live own kSize depth chain := by
  induction chain generalizing depth with
  | nil => exact absurd rfl nonempty
  | cons self next ih =>
      have here := placed 0 self rfl
      cases next with
      | nil => exact .last here.1
      | cons child rest =>
          have longer : 0 + 1 < (self :: child :: rest).length := Nat.succ_lt_succ (Nat.succ_pos _)
          refine .split here.1 (here.2 longer) (ih (List.cons_ne_nil _ _) ?_)
          intro offset bucket found
          have later := placed (offset + 1) bucket found
          rw [Nat.add_comm offset, <- Nat.add_assoc] at later
          exact ⟨later.1, fun more => later.2 (by rw [Nat.add_comm 1]; exact Nat.succ_lt_succ more)⟩

theorem nodes_sublist_stored {table : Chain} {depth : Nat} {bucket : Bucket}
    (found : table[depth]? = some bucket) : bucket.nodes.Sublist (Bucket.stored table) := by
  rw [Bucket.stored, List.flatMap]
  exact List.sublist_flatten_of_mem (List.mem_map_of_mem (List.mem_of_getElem? found))

/-- The bucketwise reading says all that there is to say. -/
theorem WellPlaced.live {table : Chain} (nonempty : table ≠ []) (placed : WellPlaced own kSize table) :
    Live own kSize 0 table := by
  refine .of_placed nonempty fun depth bucket found => ?_
  rw [Nat.zero_add]
  rcases placed.bucketIndex_eq depth bucket found with ⟨index, bound⟩
  rcases placed.settings_eq depth bucket found with ⟨ownId, size⟩
  have once := placed.nodup.sublist ((nodes_sublist_stored found).map NodeInfo.id)
  exact ⟨⟨ownId, size, index, bound, placed.length_le depth bucket found,
    fun node member => placed.shares depth bucket node found member, once⟩,
    fun longer node member => placed.differs depth bucket node found member longer⟩

/-! ## Levels beyond the deepest index are never entered -/

namespace Bucket

/-- One operation returns whenever the other does, with the same result. -/
def Extends (wider narrower : Chain -> NodeInfo -> Option Chain) : Prop :=
  forall chain node result, narrower chain node = some result -> wider chain node = some result

variable {wider narrower : Chain -> NodeInfo -> Option Chain}

theorem redistribute_extends (extend : Extends wider narrower) (self : Bucket) (remaining : Nat)
    (nodes : List NodeInfo) (index : Nat) (next : Chain) (result : List NodeInfo × Chain)
    (returned : self.redistribute narrower remaining nodes index next = some result) :
    self.redistribute wider remaining nodes index next = some result := by
  induction remaining generalizing nodes index next with
  | zero => exact returned
  | succ remaining ih =>
      unfold redistribute at returned ⊢
      cases slot : nodes[index]? with
      | none =>
          rw [slot] at returned
          cases returned
      | some node =>
          rw [slot] at returned
          change (if self.belongsHere node then _ else _) = _ at returned
          change (if self.belongsHere node then _ else _) = _
          by_cases belongs : self.belongsHere node = true
          · rw [if_pos belongs] at returned ⊢
            exact ih _ _ _ returned
          · rw [if_neg belongs] at returned ⊢
            rcases Option.bind_eq_some_iff.mp returned with ⟨middle, added, later⟩
            exact Option.bind_eq_some_iff.mpr ⟨middle, extend _ _ _ added, ih _ _ _ later⟩

theorem makeNextBucket_extends (extend : Extends wider narrower) (self : Bucket) (next : Chain)
    (result : Bool × Chain) (returned : self.makeNextBucket narrower next = some result) :
    self.makeNextBucket wider next = some result := by
  unfold makeNextBucket at returned ⊢
  by_cases deepest : self.bucketIndex = MAX_BUCKET_INDEX
  · rw [if_pos deepest] at returned ⊢
    exact returned
  · rw [if_neg deepest] at returned ⊢
    by_cases overflow : self.bucketIndex.toNat = 255
    · rw [if_pos overflow] at returned
      cases returned
    · rw [if_neg overflow] at returned ⊢
      by_cases unset : next.isEmpty = true
      · rw [if_pos unset] at returned ⊢
        rcases Option.map_eq_some_iff.mp returned with ⟨divided, loop, same⟩
        rw [redistribute_extends extend self _ _ _ _ divided loop, ← same]
        rfl
      · rw [if_neg unset] at returned ⊢
        exact returned

theorem route_extends (extend : Extends wider narrower) : Extends (route wider) (route narrower) := by
  intro chain node result returned
  cases chain with
  | nil => exact returned
  | cons self next =>
      unfold route at returned ⊢
      change (if self.belongsHere node then _ else _) = _ at returned
      change (if self.belongsHere node then _ else _) = _
      by_cases belongs : self.belongsHere node = true
      · rw [if_pos belongs] at returned ⊢
        exact returned
      · rw [if_neg belongs] at returned ⊢
        cases next with
        | nil => exact returned
        | cons head tail =>
            rcases Option.map_eq_some_iff.mp returned with ⟨behind, added, same⟩
            exact Option.map_eq_some_iff.mpr ⟨behind, extend _ _ _ added, same⟩

theorem addWithin_succ_extends (levels : Nat) : Extends (addWithin (levels + 1)) (addWithin levels) := by
  induction levels with
  | zero =>
      intro chain node result returned
      cases returned
  | succ levels ih =>
      intro chain node result returned
      cases chain with
      | nil => exact returned
      | cons self next =>
          rw [addWithin] at returned ⊢
          by_cases room : (next.isEmpty && decide (self.nodes.length < self.kSize.toNat)) = true
          · rw [if_pos room] at returned ⊢
            exact returned
          · rw [if_neg room] at returned ⊢
            by_cases full : (next.isEmpty && decide (self.nodes.length = self.kSize.toNat)) = true
            · rw [if_pos full] at returned ⊢
              rcases Option.bind_eq_some_iff.mp returned with ⟨⟨proceed, divided⟩, split, routed⟩
              rw [makeNextBucket_extends ih self next _ split]
              cases proceed with
              | false => exact routed
              | true => exact route_extends ih divided node result routed
            · rw [if_neg full] at returned ⊢
              exact route_extends ih _ _ _ returned

/-- Levels that are not needed change nothing. -/
theorem addWithin_extends {levels more : Nat} (enough : levels ≤ more) :
    Extends (addWithin more) (addWithin levels) := by
  induction enough with
  | refl => exact fun _ _ _ returned => returned
  | step _ ih => exact fun chain node result returned =>
      addWithin_succ_extends _ chain node result (ih chain node result returned)

end Bucket

/-- On a live table `add` needs one level for each of the indexes 0 to 159. -/
theorem add_spec {table : Chain} (live : Live own kSize 0 table) (node : NodeInfo) :
    Exists fun table' => Bucket.add table node = some table' ∧
      Bucket.addWithin 160 table node = some table' ∧ Live own kSize 0 table' ∧
      AddOutcome own kSize.toNat (Bucket.stored table) node (Bucket.stored table') := by
  rcases addWithin_spec 160 live (sharesPrefix_zero own node.id) (Nat.le_refl _) with
    ⟨table', added, live', outcome⟩
  exact ⟨table', Bucket.addWithin_extends (by decide) _ _ _ added, added, live', outcome⟩

/-- Whatever `add` returns was reached in one of its ways. -/
theorem Live.added {table table' : Chain} {node : NodeInfo} (live : Live own kSize 0 table)
    (taken : Bucket.add table node = some table') : Added node table table' := by
  rcases addWithin_added Bucket.BUCKET_LEVELS live node (by decide) with ⟨chain', returned, added⟩
  rw [Bucket.add, returned, Option.some.injEq] at taken
  exact taken ▸ added

/-! ## Every run succeeds and keeps the shape -/

theorem perform_live {table : Chain} (live : Live own kSize 0 table) (call : TableCall) :
    Exists fun table' => Exists fun answer =>
      Bucket.perform table call = some (table', answer) ∧ Live own kSize 0 table' := by
  cases call with
  | add node =>
      rcases add_spec live node with ⟨table', added, _, live', _⟩
      refine ⟨table', none, ?_, live'⟩
      rw [Bucket.perform, added]
      rfl
  | remove id =>
      rcases remove_spec live (sharesPrefix_zero own id) with ⟨table', removed, live', _⟩
      refine ⟨table', some (decide (id ∈ Bucket.storedIds table)), ?_, live'⟩
      rw [Bucket.perform, removed]
      rfl

theorem performAll_live (own : U160) (kSize : UInt8) (calls : List TableCall) :
    Exists fun table => Exists fun answers =>
      Bucket.performAll own kSize calls = some (table, answers) ∧ Live own kSize 0 table :=
  PartialRun.replies_of_invariant (fun _ call live => perform_live live call) calls (Live.root own kSize)

theorem live_of_performAll {calls : List TableCall} {table : Chain} {answers : List (Option Bool)}
    (built : Bucket.performAll own kSize calls = some (table, answers)) : Live own kSize 0 table := by
  rcases performAll_live own kSize calls with ⟨same, _, builtToo, live⟩
  cases built.symm.trans builtToo
  exact live

/-- Every sequence of calls returns without a panic and leaves a well-placed
table, on which `add` still needs no level beyond index 159. -/
theorem performAll_wellPlaced (own : U160) (kSize : UInt8) (calls : List TableCall) :
    Exists fun table => Exists fun answers =>
      Bucket.performAll own kSize calls = some (table, answers) ∧ WellPlaced own kSize table ∧
      forall node, Exists fun table' =>
        Bucket.add table node = some table' ∧ Bucket.addWithin 160 table node = some table' := by
  rcases performAll_live own kSize calls with ⟨table, answers, performed, live⟩
  refine ⟨table, answers, performed, live.wellPlaced, ?_⟩
  intro node
  rcases add_spec live node with ⟨table', added, within, _⟩
  exact ⟨table', added, within⟩

/-! ## Where stored contacts come from -/

/-- `remove` only deletes. -/
theorem remove_sublist {chain chain' : Chain} {id : U160} {found : Bool}
    (removed : Bucket.remove chain id = some (chain', found)) :
    (Bucket.stored chain').Sublist (Bucket.stored chain) := by
  induction chain generalizing chain' with
  | nil => cases removed
  | cons self next ih =>
      rw [Bucket.remove] at removed
      by_cases here : (next.isEmpty || self.idBelongsHere id) = true
      · rw [if_pos here] at removed
        cases search : self.nodes.findIdx? (fun stored => stored.id == id) with
        | none =>
            rw [search] at removed
            cases removed
            exact List.Sublist.refl _
        | some index =>
            rw [search] at removed
            cases removed
            exact (List.eraseIdx_sublist _ _).append_right _
      · rw [if_neg here] at removed
        rcases Option.map_eq_some_iff.mp removed with ⟨behind, removedBehind, same⟩
        cases same
        exact (ih removedBehind).append_left _

theorem perform_origin {table table' : Chain} (live : Live own kSize 0 table) {call : TableCall}
    {answer : Option Bool} (performed : Bucket.perform table call = some (table', answer)) {node : NodeInfo}
    (member : node ∈ Bucket.stored table') : node ∈ Bucket.stored table ∨ call = .add node := by
  cases call with
  | remove id =>
      rcases Option.map_eq_some_iff.mp performed with ⟨⟨behind, found⟩, removed, same⟩
      cases same
      exact Or.inl ((remove_sublist removed).mem member)
  | add added =>
      rcases Option.map_eq_some_iff.mp performed with ⟨behind, taken, same⟩
      cases same
      rcases add_spec live added with ⟨_, takenToo, _, _, outcome⟩
      rw [taken, Option.some.injEq] at takenToo
      subst takenToo
      cases outcome with
      | known _ perm => exact Or.inl (perm.mem_iff.mp member)
      | refused _ _ perm => exact Or.inl (perm.mem_iff.mp member)
      | kept _ _ perm =>
          rcases List.mem_cons.mp (perm.mem_iff.mp member) with rfl | before
          · exact Or.inr rfl
          · exact Or.inl before

/-- The contacts of a table were all given to it by some call. -/
theorem performAll_origin (own : U160) (kSize : UInt8) (calls : List TableCall) :
    Exists fun table => Exists fun answers =>
      Bucket.performAll own kSize calls = some (table, answers) ∧ Live own kSize 0 table ∧
      forall node, node ∈ Bucket.stored table -> TableCall.add node ∈ calls := by
  have kept : forall (history : List TableCall) (table : Chain) (call : TableCall),
      (Live own kSize 0 table ∧ forall node, node ∈ Bucket.stored table -> TableCall.add node ∈ history) ->
      Exists fun table' => Exists fun answer => Bucket.perform table call = some (table', answer) ∧
        (Live own kSize 0 table' ∧
          forall node, node ∈ Bucket.stored table' -> TableCall.add node ∈ history ++ [call]) := by
    rintro history table call ⟨live, given⟩
    rcases perform_live live call with ⟨table', answer, performed, live'⟩
    refine ⟨table', answer, performed, live', fun node member => ?_⟩
    rcases perform_origin live performed member with before | rfl
    · exact List.mem_append_left _ (given node before)
    · exact List.mem_append_right _ List.mem_cons_self
  have start : Live own kSize 0 (Bucket.root own kSize) ∧
      forall node, node ∈ Bucket.stored (Bucket.root own kSize) -> TableCall.add node ∈ ([] : List TableCall) :=
    ⟨Live.root own kSize, fun _ member => absurd member List.not_mem_nil⟩
  exact PartialRun.replies_of_history kept calls start

/-! ## The chain refines the eager table -/

/-- The eager table: a set of ids with at most `k_size` ids for every length of
common prefix. -/
def eagerPerform (own : U160) (kSize : UInt8) (ids : Finset U160) :
    TableCall -> Finset U160 × Option Bool
  | .add node => (CapacityTable.add (commonPrefix own) kSize.toNat ids node.id, none)
  | .remove id => ((CapacityTable.remove ids id).1, some (CapacityTable.remove ids id).2)

def eagerPerformAll (own : U160) (kSize : UInt8) (calls : List TableCall) :
    Option (Finset U160 × List (Option Bool)) :=
  PartialRun.replies (fun ids call => some (eagerPerform own kSize ids call)) ∅ calls

theorem classSize_eq_card {nodes : List NodeInfo} (nodup : (nodes.map NodeInfo.id).Nodup) (id : U160) :
    classSize own nodes id =
      (CapacityTable.members (commonPrefix own) (nodes.map NodeInfo.id).toFinset
        (commonPrefix own id)).card := by
  have filtered : CapacityTable.members (commonPrefix own) (nodes.map NodeInfo.id).toFinset
      (commonPrefix own id) =
      ((nodes.map NodeInfo.id).filter fun stored => commonPrefix own stored == commonPrefix own id).toFinset := by
    ext stored
    simp only [CapacityTable.members, Finset.mem_filter, List.mem_toFinset, List.mem_filter, beq_iff_eq]
  rw [filtered, List.toFinset_card_of_nodup (nodup.filter _), ← List.countP_eq_length_filter,
    List.countP_map]
  rfl

/-- What one `add` did to the contacts is what the eager table does to the ids. -/
theorem AddOutcome.toFinset {capacity : Nat} {before after : List NodeInfo} {node : NodeInfo}
    (roomForTwo : 2 ≤ capacity) (nodup : (before.map NodeInfo.id).Nodup)
    (outcome : AddOutcome own capacity before node after) :
    (after.map NodeInfo.id).toFinset =
      CapacityTable.add (commonPrefix own) capacity (before.map NodeInfo.id).toFinset node.id := by
  cases outcome with
  | known member perm =>
      rw [CapacityTable.add_of_mem (List.mem_toFinset.mpr member)]
      exact List.toFinset_eq_of_perm _ _ (perm.map NodeInfo.id)
  | kept absent room perm =>
      rw [CapacityTable.add_of_room (fun member => absent (List.mem_toFinset.mp member))
        (classSize_eq_card nodup node.id ▸ room), ← List.toFinset_cons]
      exact List.toFinset_eq_of_perm _ _ (perm.map NodeInfo.id)
  | refused absent full perm =>
      rw [CapacityTable.add_of_full (classSize_eq_card nodup node.id ▸ full roomForTwo)]
      exact List.toFinset_eq_of_perm _ _ (perm.map NodeInfo.id)

/-- A live chain represents the set of its ids. -/
def Represents (own : U160) (kSize : UInt8) (table : Chain) (ids : Finset U160) : Prop :=
  Live own kSize 0 table ∧ (Bucket.storedIds table).toFinset = ids

theorem perform_simulates (roomForTwo : 2 ≤ kSize.toNat) {table : Chain} {ids : Finset U160}
    (represents : Represents own kSize table ids) (call : TableCall) :
    Exists fun table' => Exists fun ids' => Exists fun answer =>
      Bucket.perform table call = some (table', answer) ∧
      some (eagerPerform own kSize ids call) = some (ids', answer) ∧
      Represents own kSize table' ids' := by
  rcases represents with ⟨live, rfl⟩
  cases call with
  | add node =>
      rcases add_spec live node with ⟨table', added, _, live', outcome⟩
      refine ⟨table', _, none, ?_, rfl, live', ?_⟩
      · rw [Bucket.perform, added]
        rfl
      · exact outcome.toFinset roomForTwo live.nodup
  | remove id =>
      rcases remove_spec live (sharesPrefix_zero own id) with ⟨table', removed, live', ids⟩
      refine ⟨table', (Bucket.storedIds table).toFinset.erase id,
        some (decide (id ∈ Bucket.storedIds table)), ?_, ?_, live', ?_⟩
      · rw [Bucket.perform, removed]
        rfl
      · simp only [eagerPerform, CapacityTable.remove, List.mem_toFinset]
      · rw [ids]
        ext other
        rw [List.mem_toFinset, live.nodup.mem_erase_iff, Finset.mem_erase, List.mem_toFinset]

/-- The lazily split chain and the eager table answer every sequence of calls
alike and keep the same ids. -/
theorem performAll_refines_eager (own : U160) (kSize : UInt8) (roomForTwo : 2 ≤ kSize.toNat)
    (calls : List TableCall) :
    Exists fun table => Exists fun ids => Exists fun answers =>
      Bucket.performAll own kSize calls = some (table, answers) ∧
      eagerPerformAll own kSize calls = some (ids, answers) ∧
      (Bucket.storedIds table).toFinset = ids := by
  have start : Represents own kSize (Bucket.root own kSize) ∅ := ⟨Live.root own kSize, rfl⟩
  have simulates : forall table ids call, Represents own kSize table ids ->
      Exists fun table' => Exists fun ids' => Exists fun answer =>
        Bucket.perform table call = some (table', answer) ∧
        some (eagerPerform own kSize ids call) = some (ids', answer) ∧
        Represents own kSize table' ids' :=
    fun _ _ call represents => perform_simulates roomForTwo represents call
  rcases PartialRun.replies_simulation simulates calls start with ⟨table, ids, answers, performed, specified, represents⟩
  exact ⟨table, ids, answers, performed, specified, represents.2⟩

namespace SplitTable

def contact (high : BitVec 128) : NodeInfo := ⟨.new high 0, .v4 0x7f000001 1337⟩

/-- Belongs to the first bucket of a table around the id zero. -/
def far : NodeInfo := contact 0x80000000000000000000000000000000

/-- These two belong behind it. -/
def near : NodeInfo := contact 0x40000000000000000000000000000000
def nearToo : NodeInfo := contact 0x40000000000000000000000000000001

/-- The third call splits the full bucket.  Only the first removal finds the contact. -/
def calls : List TableCall := [.add far, .add near, .add nearToo, .remove far.id, .remove far.id]

def table : Chain := [⟨.min, 0, 2, []⟩, ⟨.min, 1, 2, [near, nearToo]⟩]

def answers : List (Option Bool) := [none, none, none, some true, some false]

theorem built : Bucket.performAll .min 2 calls = some (table, answers) := by
  decide +kernel

end SplitTable

open SplitTable in
theorem performAll_refines_eager_split :
    Bucket.performAll .min 2 calls = some (table, answers) ∧
      eagerPerformAll .min 2 calls = some ({near.id, nearToo.id}, answers) := by
  rcases performAll_refines_eager .min 2 (by decide) calls with ⟨reached, ids, returned, performed, specified, same⟩
  cases built.symm.trans performed
  have stored : (Bucket.storedIds table).toFinset = {near.id, nearToo.id} := by
    decide +kernel
  rw [stored] at same
  exact ⟨built, same ▸ specified⟩

end DhtExplorer
