import Mathlib.Data.List.Nodup
import DhtExplorer.Bucket
import DhtExplorer.CommonPrefix

namespace DhtExplorer

/-!
# The placement invariant of the bucket chain

Every bucket holds ids that share as many leading bits with the own id as the
bucket is deep.  A bucket that has a successor keeps only ids that leave the own
id at exactly that bit; all others are behind it.  The invariant is stated along
the chain, because `add`, `remove` and the split all recurse along it.

One step lemma says what `add` does to a live chain: it succeeds, keeps the
invariant, and stores, keeps or refuses the contact.  The set of stored ids, the
bound on every bucket and the absence of panics are all read off that lemma.
-/

/-- What holds of one bucket of a live table, whatever is behind it. -/
structure Placed (own : U160) (kSize : UInt8) (depth : Nat) (bucket : Bucket) : Prop where
  ownId_eq : bucket.ownId = own
  kSize_eq : bucket.kSize = kSize
  bucketIndex_eq : bucket.bucketIndex.toNat = depth
  depth_le : depth ≤ 159
  length_le : bucket.nodes.length ≤ kSize.toNat
  shares : forall node, node ∈ bucket.nodes -> SharesPrefix own node.id depth
  nodup : (bucket.nodes.map NodeInfo.id).Nodup

/-- A live chain from the given depth on.  Only the last bucket may still hold
ids that belong further down. -/
inductive Live (own : U160) (kSize : UInt8) : Nat -> Chain -> Prop where
  | last {depth : Nat} {self : Bucket} (placed : Placed own kSize depth self) :
      Live own kSize depth [self]
  | split {depth : Nat} {self : Bucket} {next : Chain} (placed : Placed own kSize depth self)
      (differs : forall node, node ∈ self.nodes -> own.getBit depth ≠ node.id.getBit depth)
      (behind : Live own kSize (depth + 1) next) : Live own kSize depth (self :: next)

variable {own : U160} {kSize : UInt8} {depth : Nat} {self : Bucket} {next chain : Chain}
  {node : NodeInfo} {id : U160}

namespace Placed

theorem belongsHere_iff (placed : Placed own kSize depth self) :
    self.belongsHere node = true <-> own.getBit depth ≠ node.id.getBit depth := by
  rw [Bucket.belongsHere, placed.ownId_eq, placed.bucketIndex_eq, U160.getBit_distance_eq_true]

theorem idBelongsHere_iff (placed : Placed own kSize depth self) :
    self.idBelongsHere id = true <-> own.getBit depth ≠ id.getBit depth := by
  rw [Bucket.idBelongsHere, placed.ownId_eq, placed.bucketIndex_eq, U160.getBit_distance_eq_true]

/-- Replacing the contacts keeps the invariant when the new ones fit. -/
theorem withNodes (placed : Placed own kSize depth self) {nodes : List NodeInfo}
    (length_le : nodes.length ≤ kSize.toNat)
    (shares : forall node, node ∈ nodes -> SharesPrefix own node.id depth)
    (nodup : (nodes.map NodeInfo.id).Nodup) :
    Placed own kSize depth { self with nodes := nodes } :=
  ⟨placed.ownId_eq, placed.kSize_eq, placed.bucketIndex_eq, placed.depth_le, length_le, shares, nodup⟩

theorem addOrUpdate (placed : Placed own kSize depth self) (shares : SharesPrefix own node.id depth) :
    Placed own kSize depth (self.addOrUpdate node) where
  ownId_eq := by rw [Bucket.addOrUpdate_ownId, placed.ownId_eq]
  kSize_eq := by rw [Bucket.addOrUpdate_kSize, placed.kSize_eq]
  bucketIndex_eq := by rw [Bucket.addOrUpdate_bucketIndex, placed.bucketIndex_eq]
  depth_le := placed.depth_le
  length_le := by
    rw [← placed.kSize_eq]
    exact Bucket.length_addOrUpdate_le node (placed.kSize_eq ▸ placed.length_le)
  shares := by
    intro stored member
    rcases Bucket.mem_addOrUpdate member with old | new
    · exact placed.shares stored old
    · exact new ▸ shares
  nodup := Bucket.nodup_addOrUpdate node placed.nodup

theorem child_bucketIndex (placed : Placed own kSize depth self) (shallow : depth < 159) :
    self.child.bucketIndex.toNat = depth + 1 := by
  have index := placed.bucketIndex_eq
  change (self.bucketIndex + 1).toNat = depth + 1
  rw [UInt8.toNat_add, index]
  exact Nat.mod_eq_of_lt (by change depth + 1 < 256; omega)

theorem child (placed : Placed own kSize depth self) (shallow : depth < 159) :
    Placed own kSize (depth + 1) self.child where
  ownId_eq := placed.ownId_eq
  kSize_eq := placed.kSize_eq
  bucketIndex_eq := placed.child_bucketIndex shallow
  depth_le := shallow
  length_le := Nat.zero_le _
  shares := fun _ member => absurd member List.not_mem_nil
  nodup := List.nodup_nil

/-- A last bucket that is not at the deepest index can be split. -/
theorem shallow (placed : Placed own kSize depth self) (shallow : self.bucketIndex ≠ MAX_BUCKET_INDEX) :
    depth < 159 := by
  refine Nat.lt_of_le_of_ne placed.depth_le fun last => shallow ?_
  apply UInt8.toNat_inj.mp
  exact placed.bucketIndex_eq.trans last

theorem shares_succ (placed : Placed own kSize depth self) (shares : SharesPrefix own node.id depth)
    (leaves : self.belongsHere node = false) : SharesPrefix own node.id (depth + 1) := by
  apply shares.succ
  by_contra differs
  rw [placed.belongsHere_iff.mpr differs] at leaves
  cases leaves

end Placed

/-! ## Consequences along the chain -/

theorem Live.depth_le (live : Live own kSize depth chain) : depth ≤ 159 := by
  cases live with
  | last placed => exact placed.depth_le
  | split placed _ _ => exact placed.depth_le

theorem Live.nonempty (live : Live own kSize depth chain) : chain ≠ [] := by
  cases live <;> exact List.cons_ne_nil _ _

theorem Live.last_placed (live : Live own kSize depth [self]) : Placed own kSize depth self := by
  cases live with
  | last placed => exact placed
  | split placed _ _ => exact placed

/-- What holds of a bucket with a successor, and of the buckets behind it. -/
theorem Live.uncons (live : Live own kSize depth (self :: next)) (nonempty : next ≠ []) :
    Placed own kSize depth self ∧
      (forall node, node ∈ self.nodes -> own.getBit depth ≠ node.id.getBit depth) ∧
      Live own kSize (depth + 1) next := by
  cases live with
  | last placed => exact absurd rfl nonempty
  | split placed differs behind => exact ⟨placed, differs, behind⟩

theorem Live.shares (live : Live own kSize depth chain) :
    forall node, node ∈ Bucket.stored chain -> SharesPrefix own node.id depth := by
  induction live with
  | last placed =>
      intro node member
      rw [Bucket.stored_cons, Bucket.stored_nil, List.append_nil] at member
      exact placed.shares node member
  | split placed _ _ ih =>
      intro node member
      rcases List.mem_append.mp member with here | behind
      · exact placed.shares node here
      · intro index bound
        exact ih node behind index (Nat.lt_succ_of_lt bound)

/-- No id is stored twice anywhere behind the head of a live chain. -/
theorem Live.nodup (live : Live own kSize depth chain) : (Bucket.storedIds chain).Nodup := by
  induction live with
  | last placed =>
      rw [Bucket.storedIds_cons, Bucket.storedIds_nil, List.append_nil]
      exact placed.nodup
  | @split depth self next placed differs behind ih =>
      rw [Bucket.storedIds_cons]
      refine List.nodup_append.mpr ⟨placed.nodup, ih, ?_⟩
      intro first firstMember second secondMember equal
      rcases List.mem_map.mp firstMember with ⟨here, hereMember, rfl⟩
      rcases List.mem_map.mp secondMember with ⟨there, thereMember, rfl⟩
      apply differs here hereMember
      rw [equal]
      exact behind.shares there thereMember depth (Nat.lt_succ_self depth)

/-! ## The redistribution loop -/

/-- A child bucket with room takes a contact without splitting. -/
def AppendsWhileRoom (addNext : Chain -> NodeInfo -> Option Chain) : Prop :=
  forall (bucket : Bucket) (node : NodeInfo), bucket.nodes.length < bucket.kSize.toNat ->
    addNext [bucket] node = some [bucket.addOrUpdate node]

theorem addWithin_appendsWhileRoom (levels : Nat) :
    AppendsWhileRoom (Bucket.addWithin (levels + 1)) := by
  intro bucket node room
  rw [Bucket.addWithin, List.isEmpty_nil, Bool.true_and, decide_eq_true room, if_pos rfl]

/-- The contacts that a split keeps, and those it moves into the child. -/
def Bucket.sifted (self : Bucket) : List NodeInfo × List NodeInfo :=
  VecOps.sift self.belongsHere self.nodes.length self.nodes

/-- The two buckets that a split leaves behind. -/
def Bucket.divided (self : Bucket) : Chain :=
  [{ self with nodes := self.sifted.1 }, { self.child with nodes := self.sifted.2 }]

theorem Bucket.sifted_perm (self : Bucket) : (self.sifted.1 ++ self.sifted.2).Perm self.nodes :=
  VecOps.sift_perm self.belongsHere rfl

theorem Bucket.stored_divided (self : Bucket) : (Bucket.stored self.divided).Perm (Bucket.stored [self]) := by
  rw [divided, stored_cons, stored_cons, stored_cons, stored_nil, List.append_nil, List.append_nil]
  exact self.sifted_perm

/-- The loop keeps what belongs here and moves everything else into the child.
The finished part of the vector is `before`; the contacts in `after` are still
to be visited. -/
theorem redistribute_eq {addNext : Chain -> NodeInfo -> Option Chain} (appends : AppendsWhileRoom addNext)
    (self bucket : Bucket) (before after : List NodeInfo)
    (room : bucket.nodes.length + after.length ≤ bucket.kSize.toNat)
    (nodup : ((bucket.nodes ++ after).map NodeInfo.id).Nodup) :
    self.redistribute addNext after.length (before ++ after) before.length [bucket] =
      some (before ++ (VecOps.sift self.belongsHere after.length after).1,
        [{ bucket with nodes := bucket.nodes ++ (VecOps.sift self.belongsHere after.length after).2 }]) := by
  induction lengthEq : after.length generalizing before after bucket with
  | zero =>
      rw [List.length_eq_zero_iff.mp lengthEq, Bucket.redistribute, VecOps.sift, List.append_nil, List.append_nil]
  | succ remaining ih =>
      cases after with
      | nil => cases lengthEq
      | cons node after =>
          have lengthAfter : after.length = remaining := Nat.succ.inj lengthEq
          rw [List.length_cons] at room
          have atIndex : (before ++ node :: after)[before.length]? = some node := by
            rw [List.getElem?_append_right (Nat.le_refl _), Nat.sub_self]
            rfl
          rw [Bucket.redistribute, atIndex]
          cases belongs : self.belongsHere node with
          | true =>
              have fewer := nodup.sublist (((List.sublist_cons_self node after).append_left _).map NodeInfo.id)
              have next := ih bucket (before ++ [node]) after (by omega) fewer lengthAfter
              rw [List.append_assoc, List.singleton_append, List.length_append, List.length_singleton,
                List.append_assoc, List.singleton_append] at next
              simp only [belongs, if_true]
              rw [VecOps.sift_of_keeps belongs]
              exact next
          | false =>
              have absent : node.id ∉ bucket.nodes.map NodeInfo.id := by
                rw [List.map_append, List.map_cons] at nodup
                intro member
                exact List.disjoint_of_nodup_append nodup member List.mem_cons_self
              have bucketRoom : bucket.nodes.length < bucket.kSize.toNat := by omega
              have taken := appends bucket node bucketRoom
              rw [Bucket.addOrUpdate_of_room absent bucketRoom] at taken
              have perm := VecOps.lastFirst_perm after
              have lengthRest : (VecOps.lastFirst after).length = remaining := perm.length_eq.trans lengthAfter
              have stillRoom : (bucket.nodes ++ [node]).length + (VecOps.lastFirst after).length ≤
                  bucket.kSize.toNat := by
                rw [List.length_append, List.length_singleton, lengthRest]
                omega
              have stillNodup : ((bucket.nodes ++ [node] ++ VecOps.lastFirst after).map NodeInfo.id).Nodup := by
                rw [List.append_assoc, List.singleton_append]
                exact ((((perm.cons node).append_left bucket.nodes).map NodeInfo.id).nodup_iff).mpr nodup
              have next := ih { bucket with nodes := bucket.nodes ++ [node] } before (VecOps.lastFirst after)
                stillRoom stillNodup lengthRest
              simp only [belongs, Bool.false_eq_true, if_false, taken, Option.bind_some]
              rw [VecOps.swapRemove_append_cons, VecOps.sift_of_removes belongs, next, List.append_assoc,
                List.singleton_append]

/-- Splitting a full bucket above the deepest index. -/
theorem makeNextBucket_eq (levels : Nat) (placed : Placed own kSize depth self) (shallow : depth < 159) :
    self.makeNextBucket (Bucket.addWithin (levels + 1)) [] = some (true, self.divided) := by
  have notDeepest : self.bucketIndex ≠ MAX_BUCKET_INDEX := by
    intro equal
    have index := placed.bucketIndex_eq
    rw [equal] at index
    change 159 = depth at index
    omega
  have noOverflow : self.bucketIndex.toNat ≠ 255 := by
    rw [placed.bucketIndex_eq]
    omega
  have room : self.child.nodes.length + self.nodes.length ≤ self.child.kSize.toNat := by
    change 0 + self.nodes.length ≤ self.kSize.toNat
    rw [Nat.zero_add, placed.kSize_eq]
    exact placed.length_le
  have loop := redistribute_eq (addWithin_appendsWhileRoom levels) self self.child [] self.nodes room placed.nodup
  rw [List.nil_append, List.length_nil] at loop
  rw [Bucket.makeNextBucket, if_neg notDeepest, if_neg noOverflow, List.isEmpty_nil, if_pos rfl, loop]
  rfl

/-- The two parts of a bucket that was split. -/
theorem Placed.divided (placed : Placed own kSize depth self) (shallow : depth < 159) :
    Live own kSize depth self.divided := by
  have total : self.sifted.1.length + self.sifted.2.length ≤ kSize.toNat := by
    rw [← List.length_append, self.sifted_perm.length_eq]
    exact placed.length_le
  have nodup : (self.sifted.1.map NodeInfo.id ++ self.sifted.2.map NodeInfo.id).Nodup := by
    rw [← List.map_append]
    exact ((self.sifted_perm.map NodeInfo.id).nodup_iff).mpr placed.nodup
  have inside : forall stored, stored ∈ self.sifted.1 ++ self.sifted.2 -> SharesPrefix own stored.id depth :=
    fun stored member => placed.shares stored (self.sifted_perm.mem_iff.mp member)
  have tests := VecOps.sift_tests self.belongsHere self.nodes.length self.nodes
  refine .split (placed.withNodes (by omega) ?_ (List.nodup_append.mp nodup).1) ?_
    (.last ((placed.child shallow).withNodes (by omega) ?_ (List.nodup_append.mp nodup).2.1))
  · exact fun stored member => inside stored (List.mem_append_left _ member)
  · exact fun stored member => placed.belongsHere_iff.mp (tests.1 stored member)
  · intro stored member
    apply (inside stored (List.mem_append_right _ member)).succ
    by_contra leaves
    have away := tests.2 stored member
    rw [placed.belongsHere_iff.mpr leaves] at away
    cases away

/-! ## The ways through `add` -/

/-- Everything `add` can do with a contact: the last bucket stores it, or refuses
it at the deepest index; a bucket in front keeps it or hands it on; and a full
last bucket is split first. -/
inductive Added (node : NodeInfo) : Chain -> Chain -> Prop where
  | stored {self : Bucket} (room : self.nodes.length < self.kSize.toNat) : Added node [self] [self.addOrUpdate node]
  | refused {self : Bucket} (deepest : self.bucketIndex = MAX_BUCKET_INDEX)
      (full : self.nodes.length = self.kSize.toNat) : Added node [self] [self]
  | here {self : Bucket} {next : Chain} (nonempty : next ≠ []) (belongs : self.belongsHere node = true) :
      Added node (self :: next) (self.addOrUpdate node :: next)
  | further {self : Bucket} {next next' : Chain} (nonempty : next ≠ []) (leaves : self.belongsHere node = false)
      (behind : Added node next next') : Added node (self :: next) (self :: next')
  | split {self : Bucket} {chain' : Chain} (shallow : self.bucketIndex ≠ MAX_BUCKET_INDEX)
      (full : self.nodes.length = self.kSize.toNat) (routed : Added node self.divided chain') :
      Added node [self] chain'

theorem route_added {addNext : Chain -> NodeInfo -> Option Chain} (nonempty : next ≠ [])
    (adds : Exists fun next' => addNext next node = some next' ∧ Added node next next') :
    Exists fun chain' => Bucket.route addNext (self :: next) node = some chain' ∧
      Added node (self :: next) chain' := by
  cases belongs : self.belongsHere node with
  | true =>
      refine ⟨self.addOrUpdate node :: next, ?_, .here nonempty belongs⟩
      simp only [Bucket.route, belongs, if_true]
  | false =>
      rcases adds with ⟨next', added, behind⟩
      refine ⟨self :: next', ?_, .further nonempty belongs behind⟩
      cases next with
      | nil => exact absurd rfl nonempty
      | cons head tail =>
          simp only [Bucket.route, belongs, Bool.false_eq_true, if_false, added, Option.map_some]

/-- Descending through the indexes that remain, `add` returns in one of these ways. -/
theorem addWithin_added (levels : Nat) (live : Live own kSize depth chain) (node : NodeInfo)
    (enough : 160 ≤ depth + levels) :
    Exists fun chain' => Bucket.addWithin levels chain node = some chain' ∧ Added node chain chain' := by
  induction levels generalizing depth chain with
  | zero =>
      have bound := live.depth_le
      omega
  | succ levels ih =>
      cases live with
      | @split depth self next placed differs behind =>
          have successor : next.isEmpty = false :=
            Bool.eq_false_iff.mpr fun empty => behind.nonempty (List.isEmpty_iff.mp empty)
          rw [Bucket.addWithin, successor, Bool.false_and, Bool.false_and, if_neg Bool.false_ne_true,
            if_neg Bool.false_ne_true]
          exact route_added behind.nonempty (ih behind (by omega))
      | @last depth self placed =>
          by_cases room : self.nodes.length < self.kSize.toNat
          · exact ⟨[self.addOrUpdate node], addWithin_appendsWhileRoom levels self node room, .stored room⟩
          · have full : self.nodes.length = self.kSize.toNat :=
              Nat.le_antisymm (placed.kSize_eq ▸ placed.length_le) (Nat.le_of_not_lt room)
            rw [Bucket.addWithin, List.isEmpty_nil, Bool.true_and, Bool.true_and,
              decide_eq_false room, if_neg Bool.false_ne_true, decide_eq_true full, if_pos rfl]
            by_cases deepest : self.bucketIndex = MAX_BUCKET_INDEX
            · refine ⟨[self], ?_, .refused deepest full⟩
              rw [Bucket.makeNextBucket, if_pos deepest]
              rfl
            · have shallow := placed.shallow deepest
              cases levels with
              | zero => omega
              | succ levels =>
                  have divided := placed.divided shallow
                  rw [makeNextBucket_eq levels placed shallow]
                  cases divided with
                  | split _ _ behind =>
                      rcases route_added behind.nonempty (ih behind (by omega)) with ⟨chain', routed, added⟩
                      exact ⟨chain', routed, .split deepest full added⟩

/-! ## What `add` does to a live chain -/

/-- The number of stored contacts with as long a common prefix as the given id. -/
def classSize (own : U160) (nodes : List NodeInfo) (id : U160) : Nat :=
  nodes.countP fun stored => commonPrefix own stored.id == commonPrefix own id

/-- The effect of one `add` on the stored contacts.  A known id keeps the stored
record.  A refused one finds its class full, except that a table with room for a
single contact may refuse at the deepest index what would have its own class. -/
inductive AddOutcome (own : U160) (capacity : Nat) (before : List NodeInfo) (node : NodeInfo)
    (after : List NodeInfo) : Prop where
  | known (member : node.id ∈ before.map NodeInfo.id) (perm : after.Perm before) :
      AddOutcome own capacity before node after
  | kept (absent : node.id ∉ before.map NodeInfo.id) (room : classSize own before node.id < capacity)
      (perm : after.Perm (node :: before)) : AddOutcome own capacity before node after
  | refused (absent : node.id ∉ before.map NodeInfo.id)
      (full : 2 ≤ capacity -> capacity ≤ classSize own before node.id) (perm : after.Perm before) :
      AddOutcome own capacity before node after

namespace AddOutcome

variable {capacity : Nat} {before before' after : List NodeInfo}

/-- The order in which the contacts were stored is irrelevant. -/
theorem of_perm (perm : before.Perm before') (outcome : AddOutcome own capacity before node after) :
    AddOutcome own capacity before' node after := by
  have sameClass : classSize own before node.id = classSize own before' node.id := perm.countP_eq _
  have sameIds := (perm.map NodeInfo.id).mem_iff (a := node.id)
  cases outcome with
  | known member kept => exact known (sameIds.mp member) (kept.trans perm)
  | kept absent room kept =>
      exact AddOutcome.kept (fun member => absent (sameIds.mpr member)) (sameClass ▸ room)
        (kept.trans (perm.cons node))
  | refused absent full kept =>
      exact refused (fun member => absent (sameIds.mpr member)) (sameClass ▸ full) (kept.trans perm)

/-- Contacts of other classes, kept in front, do not matter. -/
theorem append_left {others : List NodeInfo}
    (different : forall other, other ∈ others -> commonPrefix own other.id ≠ commonPrefix own node.id)
    (outcome : AddOutcome own capacity before node after) :
    AddOutcome own capacity (others ++ before) node (others ++ after) := by
  have sameClass : classSize own (others ++ before) node.id = classSize own before node.id := by
    have none : others.countP (fun stored => commonPrefix own stored.id == commonPrefix own node.id) = 0 := by
      rw [List.countP_eq_zero]
      intro other member equal
      exact different other member (beq_iff_eq.mp equal)
    rw [classSize, List.countP_append, none, Nat.zero_add]
    rfl
  have absentOthers : node.id ∉ others.map NodeInfo.id := by
    intro member
    rcases List.mem_map.mp member with ⟨other, otherMember, equal⟩
    exact different other otherMember (congrArg (commonPrefix own) equal)
  have split : node.id ∈ (others ++ before).map NodeInfo.id <-> node.id ∈ before.map NodeInfo.id := by
    rw [List.map_append, List.mem_append]
    exact ⟨fun member => member.resolve_left absentOthers, Or.inr⟩
  cases outcome with
  | known member perm => exact known (split.mpr member) (perm.append_left others)
  | kept absent room perm =>
      apply AddOutcome.kept (fun member => absent (split.mp member)) (sameClass ▸ room)
      exact (perm.append_left others).trans List.perm_middle
  | refused absent full perm =>
      exact refused (fun member => absent (split.mp member)) (sameClass ▸ full) (perm.append_left others)

end AddOutcome

/-- One bucket's own decision is the table's decision when nothing else in the
table has the class of the contact. -/
theorem addOrUpdate_outcome (placed : Placed own kSize depth self) {behind : List NodeInfo}
    (atDepth : forall stored, stored ∈ self.nodes -> commonPrefix own stored.id = commonPrefix own node.id)
    (deeper : forall stored, stored ∈ behind -> commonPrefix own stored.id ≠ commonPrefix own node.id) :
    AddOutcome own kSize.toNat (self.nodes ++ behind) node ((self.addOrUpdate node).nodes ++ behind) := by
  have size : classSize own (self.nodes ++ behind) node.id = self.nodes.length := by
    have here : self.nodes.countP (fun stored => commonPrefix own stored.id == commonPrefix own node.id) =
        self.nodes.length :=
      List.countP_eq_length.mpr fun stored member => beq_iff_eq.mpr (atDepth stored member)
    have none : behind.countP (fun stored => commonPrefix own stored.id == commonPrefix own node.id) = 0 := by
      rw [List.countP_eq_zero]
      intro stored member equal
      exact deeper stored member (beq_iff_eq.mp equal)
    rw [classSize, List.countP_append, here, none, Nat.add_zero]
  have absentBehind : node.id ∉ behind.map NodeInfo.id := by
    intro member
    rcases List.mem_map.mp member with ⟨stored, storedMember, equal⟩
    exact deeper stored storedMember (congrArg (commonPrefix own) equal)
  have split : node.id ∈ (self.nodes ++ behind).map NodeInfo.id <-> node.id ∈ self.nodes.map NodeInfo.id := by
    rw [List.map_append, List.mem_append]
    exact ⟨fun member => member.resolve_right absentBehind, Or.inl⟩
  rcases Bucket.addOrUpdate_cases self node with ⟨member, perm⟩ | ⟨absent, room, appended⟩ |
    ⟨absent, full, same⟩
  · exact .known (split.mpr member) (perm.append_right behind)
  · refine .kept (fun member => absent (split.mp member)) ?_ ?_
    · rw [size, ← placed.kSize_eq]
      exact room
    · rw [appended, List.append_assoc]
      exact List.perm_middle
  · refine .refused (fun member => absent (split.mp member)) (fun _ => ?_) ?_
    · rw [size, ← placed.kSize_eq]
      exact full
    · rw [same]

/-- At the deepest index a full bucket refuses silently.  With room for two
contacts it already holds the only two ids that belong there. -/
theorem Placed.deepest_outcome (placed : Placed own kSize 159 self)
    (shares : SharesPrefix own node.id 159) (full : self.nodes.length = self.kSize.toNat) :
    AddOutcome own kSize.toNat (Bucket.stored [self]) node (Bucket.stored [self]) := by
  by_cases member : node.id ∈ (Bucket.stored [self]).map NodeInfo.id
  · exact .known member (List.Perm.refl _)
  · refine .refused member (fun roomForTwo => absurd ?_ member) (List.Perm.refl _)
    rw [Bucket.stored_cons, Bucket.stored_nil, List.append_nil]
    have nodup := placed.nodup
    have stored := placed.shares
    rw [← placed.kSize_eq, ← full] at roomForTwo
    match nodes : self.nodes with
    | [] => rw [nodes] at roomForTwo; cases roomForTwo
    | [_] => rw [nodes] at roomForTwo; exact absurd roomForTwo (Nat.not_succ_le_self 1)
    | first :: second :: rest =>
        rw [nodes, List.map_cons, List.map_cons] at nodup
        rw [nodes] at stored
        have different : first.id ≠ second.id :=
          fun equal => (List.nodup_cons.mp nodup).1 (equal ▸ List.mem_cons_self)
        rw [List.map_cons, List.map_cons]
        rcases eq_or_eq_of_sharesPrefix_159 (stored first List.mem_cons_self)
          (stored second (List.mem_cons_of_mem _ List.mem_cons_self)) shares different with same | same
        · exact same ▸ List.mem_cons_self
        · exact same ▸ List.mem_cons_of_mem _ List.mem_cons_self

/-- No way through `add` loses the placement. -/
theorem Added.live {chain' : Chain} (added : Added node chain chain') (live : Live own kSize depth chain)
    (shares : SharesPrefix own node.id depth) : Live own kSize depth chain' := by
  induction added generalizing depth with
  | stored room => exact .last (live.last_placed.addOrUpdate shares)
  | refused deepest full => exact live
  | here nonempty belongs =>
      rcases live.uncons nonempty with ⟨placed, differs, behind⟩
      refine .split (placed.addOrUpdate shares) (fun stored member => ?_) behind
      rcases Bucket.mem_addOrUpdate member with old | new
      · exact differs stored old
      · exact new ▸ placed.belongsHere_iff.mp belongs
  | further nonempty leaves _ ih =>
      rcases live.uncons nonempty with ⟨placed, differs, behind⟩
      exact .split placed differs (ih behind (placed.shares_succ shares leaves))
  | split shallow full _ ih =>
      have placed := live.last_placed
      exact ih (placed.divided (placed.shallow shallow)) shares

/-- Every way through `add` has one of the three effects. -/
theorem Added.outcome {chain' : Chain} (added : Added node chain chain') (live : Live own kSize depth chain)
    (shares : SharesPrefix own node.id depth) :
    AddOutcome own kSize.toNat (Bucket.stored chain) node (Bucket.stored chain') := by
  induction added generalizing depth with
  | @stored self room =>
      have placed := live.last_placed
      rw [Bucket.stored_cons, Bucket.stored_cons, Bucket.stored_nil, List.append_nil, List.append_nil]
      rcases Bucket.addOrUpdate_cases self node with ⟨member, perm⟩ | ⟨absent, _, appended⟩ | ⟨_, full, _⟩
      · exact .known member perm
      · refine .kept absent ?_ ?_
        · rw [← placed.kSize_eq]
          exact Nat.lt_of_le_of_lt List.countP_le_length room
        · rw [appended]
          exact List.perm_append_singleton node self.nodes
      · exact absurd room (Nat.not_lt.mpr full)
  | refused deepest full =>
      have placed := live.last_placed
      have last : depth = 159 := by
        rw [← placed.bucketIndex_eq, deepest]
        rfl
      subst last
      exact placed.deepest_outcome shares full
  | @here self next nonempty belongs =>
      rcases live.uncons nonempty with ⟨placed, differs, behind⟩
      have inside : depth < 160 := Nat.lt_succ_of_le placed.depth_le
      have class' := commonPrefix_eq inside shares (placed.belongsHere_iff.mp belongs)
      rw [Bucket.stored_cons, Bucket.stored_cons]
      apply addOrUpdate_outcome placed
      · intro stored member
        rw [commonPrefix_eq inside (placed.shares stored member) (differs stored member), class']
      · intro stored member equal
        have deeper := (le_commonPrefix (Nat.succ_le_of_lt inside)).mpr (behind.shares stored member)
        rw [equal, class'] at deeper
        exact absurd deeper (Nat.not_succ_le_self depth)
  | @further self next next' nonempty leaves _ ih =>
      rcases live.uncons nonempty with ⟨placed, differs, behind⟩
      have inside : depth < 160 := Nat.lt_succ_of_le placed.depth_le
      have further := placed.shares_succ shares leaves
      have deeper := (le_commonPrefix (Nat.succ_le_of_lt inside)).mpr further
      rw [Bucket.stored_cons, Bucket.stored_cons]
      apply (ih behind further).append_left
      intro stored member equal
      rw [commonPrefix_eq inside (placed.shares stored member) (differs stored member)] at equal
      omega
  | @split self chain' shallow full _ ih =>
      have placed := live.last_placed
      exact (ih (placed.divided (placed.shallow shallow)) shares).of_perm self.stored_divided

/-- The step lemma.  Descending through the indexes that remain, `add` returns,
keeps the invariant, and has one of the three effects above. -/
theorem addWithin_spec (levels : Nat) (live : Live own kSize depth chain)
    (shares : SharesPrefix own node.id depth) (enough : 160 ≤ depth + levels) :
    Exists fun chain' => Bucket.addWithin levels chain node = some chain' ∧
      Live own kSize depth chain' ∧
      AddOutcome own kSize.toNat (Bucket.stored chain) node (Bucket.stored chain') := by
  rcases addWithin_added levels live node enough with ⟨chain', returned, added⟩
  exact ⟨chain', returned, added.live live shares, added.outcome live shares⟩

/-! ## What `remove` does to a live chain -/

/-- Deleting the first contact with an id deletes that id from the ids. -/
private theorem erase_ids (nodes : List NodeInfo) (id : U160) :
    (nodes.map NodeInfo.id).erase id =
      match nodes.findIdx? (fun stored => stored.id == id) with
      | none => nodes.map NodeInfo.id
      | some index => (nodes.eraseIdx index).map NodeInfo.id := by
  have position : (nodes.map NodeInfo.id).findIdx? (fun stored => stored == id) =
      nodes.findIdx? (fun stored => stored.id == id) := List.findIdx?_map
  rw [List.erase_eq_eraseP', List.eraseP_eq_eraseIdx, position]
  cases nodes.findIdx? (fun stored => stored.id == id) with
  | none => rfl
  | some index => exact List.eraseIdx_map _ _ _

theorem findIdx?_eq_none_iff_id (nodes : List NodeInfo) (id : U160) :
    nodes.findIdx? (fun stored => stored.id == id) = none <-> id ∉ nodes.map NodeInfo.id := by
  rw [List.findIdx?_eq_none_iff]
  simp only [beq_eq_false_iff_ne, List.mem_map, not_exists, not_and]

/-- Where `remove` stops, it deletes the id from this bucket if it is there. -/
theorem Bucket.remove_here (stops : (next.isEmpty || self.idBelongsHere id) = true) :
    Exists fun nodes =>
      Bucket.remove (self :: next) id =
        some ({ self with nodes := nodes } :: next, decide (id ∈ self.nodes.map NodeInfo.id)) ∧
      nodes.Sublist self.nodes ∧ nodes.map NodeInfo.id = (self.nodes.map NodeInfo.id).erase id := by
  have erased := erase_ids self.nodes id
  rw [Bucket.remove, if_pos stops]
  cases found : self.nodes.findIdx? (fun stored => stored.id == id) with
  | none =>
      have absent := (findIdx?_eq_none_iff_id self.nodes id).mp found
      rw [found] at erased
      exact ⟨self.nodes, by rw [decide_eq_false absent], List.Sublist.refl _, erased.symm⟩
  | some index =>
      have member : id ∈ self.nodes.map NodeInfo.id := by
        by_contra absent
        rw [(findIdx?_eq_none_iff_id self.nodes id).mpr absent] at found
        cases found
      rw [found] at erased
      exact ⟨self.nodes.eraseIdx index, by rw [decide_eq_true member], List.eraseIdx_sublist _ _, erased.symm⟩

/-- Deletion inside one bucket. -/
theorem Placed.sublist (placed : Placed own kSize depth self) {nodes : List NodeInfo}
    (sublist : nodes.Sublist self.nodes) : Placed own kSize depth { self with nodes := nodes } :=
  placed.withNodes (Nat.le_trans sublist.length_le placed.length_le)
    (fun stored member => placed.shares stored (sublist.mem member)) (placed.nodup.sublist (sublist.map NodeInfo.id))

/-- `remove` finds every stored id and deletes nothing else. -/
theorem remove_spec (live : Live own kSize depth chain) (shares : SharesPrefix own id depth) :
    Exists fun chain' =>
      Bucket.remove chain id = some (chain', decide (id ∈ Bucket.storedIds chain)) ∧
      Live own kSize depth chain' ∧ Bucket.storedIds chain' = (Bucket.storedIds chain).erase id := by
  induction live with
  | @last depth self placed =>
      have alone : (([] : Chain).isEmpty || self.idBelongsHere id) = true := Bool.true_or _
      rcases Bucket.remove_here alone with ⟨nodes, removed, sublist, ids⟩
      refine ⟨[{ self with nodes := nodes }], ?_, .last (placed.sublist sublist), ?_⟩
      · rw [removed, Bucket.storedIds_cons, Bucket.storedIds_nil, List.append_nil]
      · rw [Bucket.storedIds_cons, Bucket.storedIds_cons, Bucket.storedIds_nil, List.append_nil, List.append_nil, ids]
  | @split depth self next placed differs behind ih =>
      rw [Bucket.storedIds_cons, List.erase_append]
      cases belongs : self.idBelongsHere id with
      | true =>
          have leaves := placed.idBelongsHere_iff.mp belongs
          have absentBehind : id ∉ Bucket.storedIds next := by
            intro member
            rcases List.mem_map.mp member with ⟨stored, storedMember, rfl⟩
            exact leaves (behind.shares stored storedMember depth (Nat.lt_succ_self depth))
          have sameMember : id ∈ self.nodes.map NodeInfo.id ++ Bucket.storedIds next <->
              id ∈ self.nodes.map NodeInfo.id :=
            ⟨fun member => (List.mem_append.mp member).resolve_right absentBehind, List.mem_append_left _⟩
          have stops : (next.isEmpty || self.idBelongsHere id) = true := by rw [belongs, Bool.or_true]
          rcases Bucket.remove_here stops with ⟨nodes, removed, sublist, ids⟩
          refine ⟨{ self with nodes := nodes } :: next, ?_, .split (placed.sublist sublist) ?_ behind, ?_⟩
          · rw [removed, decide_eq_decide.mpr sameMember]
          · exact fun stored member => differs stored (sublist.mem member)
          · rw [Bucket.storedIds_cons, ids]
            split
            · rfl
            · rename_i absent
              rw [List.erase_of_not_mem absent, List.erase_of_not_mem absentBehind]
      | false =>
          have stays : own.getBit depth = id.getBit depth := by
            by_contra leaves
            rw [placed.idBelongsHere_iff.mpr leaves] at belongs
            cases belongs
          have absent : id ∉ self.nodes.map NodeInfo.id := by
            intro member
            rcases List.mem_map.mp member with ⟨stored, storedMember, rfl⟩
            exact differs stored storedMember stays
          have sameMember : id ∈ self.nodes.map NodeInfo.id ++ Bucket.storedIds next <->
              id ∈ Bucket.storedIds next :=
            ⟨fun member => (List.mem_append.mp member).resolve_left absent, List.mem_append_right _⟩
          have successor : (next.isEmpty || self.idBelongsHere id) = false := by
            rw [belongs, Bool.or_false]
            exact Bool.eq_false_iff.mpr fun empty => behind.nonempty (List.isEmpty_iff.mp empty)
          rcases ih (shares.succ stays) with ⟨next', removed, live, ids⟩
          refine ⟨self :: next', ?_, .split placed differs live, ?_⟩
          · rw [Bucket.remove, successor, if_neg Bool.false_ne_true, removed, decide_eq_decide.mpr sameMember]
            rfl
          · rw [if_neg absent, Bucket.storedIds_cons, ids]

end DhtExplorer
