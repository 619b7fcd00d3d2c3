import DhtExplorer.AddHistory
import DhtExplorer.Library.Recency

namespace DhtExplorer

/-!
# In which order a bucket keeps its contacts

A contact that is heard of again moves to the end of its bucket, so a bucket lists
its contacts from the one heard of longest ago to the latest one.  A split does not
keep this order: each contact that leaves is replaced by the last one, which then
stands in front of older ones.  And at the deepest index a full bucket is not
updated at all.

The condition below says of the bucket a contact comes to that neither happens.
-/

namespace Bucket

/-- What must hold of the last bucket when a contact comes to it.  If it is full,
splitting it moves no contact in front of an older one, and it is not split down to
the deepest index when the contact is stored in it in front of another one. -/
def TakesInOrder (self : Bucket) (node : NodeInfo) : Prop :=
  self.nodes.length = self.kSize.toNat ->
    VecOps.Undisturbed (self.nodes.map self.belongsHere) ∧
      forall stored, stored ∈ self.nodes.dropLast -> stored.id = node.id ->
        Exists fun other => other ∈ self.nodes ∧ ¬SharesPrefix self.ownId other.id 159

/-- The same along the chain: only the last bucket is ever split. -/
def KeepsOrder : Chain -> NodeInfo -> Prop
  | [], _ => True
  | [self], node => self.TakesInOrder node
  | self :: second :: rest, node => self.belongsHere node = false -> KeepsOrder (second :: rest) node

/-- Every bucket lists its contacts in order. -/
def InOrder (age : U160 -> Nat) (chain : Chain) : Prop :=
  forall bucket, bucket ∈ chain -> Recency.InOrder NodeInfo.id age bucket.nodes

instance (own id : U160) (depth : Nat) : Decidable (SharesPrefix own id depth) :=
  inferInstanceAs (Decidable (forall index, index < depth -> own.getBit index = id.getBit index))

instance (self : Bucket) (node : NodeInfo) : Decidable (self.TakesInOrder node) :=
  inferInstanceAs (Decidable (self.nodes.length = self.kSize.toNat -> _ ∧ _))

instance decidableKeepsOrder : (chain : Chain) -> (node : NodeInfo) -> Decidable (KeepsOrder chain node)
  | [], _ => isTrue trivial
  | [self], node => inferInstanceAs (Decidable (self.TakesInOrder node))
  | self :: second :: rest, node =>
      have := decidableKeepsOrder (second :: rest) node
      inferInstanceAs (Decidable (self.belongsHere node = false -> KeepsOrder (second :: rest) node))

variable {own : U160} {kSize : UInt8} {depth : Nat} {self : Bucket} {next chain chain' : Chain} {node : NodeInfo}
  {age : U160 -> Nat}

theorem KeepsOrder.behind (keeps : KeepsOrder (self :: next) node) (nonempty : next ≠ [])
    (leaves : self.belongsHere node = false) : KeepsOrder next node := by
  cases next with
  | nil => exact absurd rfl nonempty
  | cons second rest => exact keeps leaves

/-- One bucket keeps its order, whatever it does with the contact. -/
theorem inOrder_addOrUpdate (nodup : (self.nodes.map NodeInfo.id).Nodup)
    (inOrder : Recency.InOrder NodeInfo.id age self.nodes) :
    Recency.InOrder NodeInfo.id (Recency.ageAfter age node.id) (self.addOrUpdate node).nodes := by
  by_cases member : node.id ∈ self.nodes.map NodeInfo.id
  · rcases List.mem_map.mp member with ⟨stored, storedMember, same⟩
    rcases List.append_of_mem storedMember with ⟨before, after, split⟩
    rw [split] at nodup inOrder
    have last : node.id ∉ after.map NodeInfo.id := by
      rw [<- same]
      rw [List.map_append, List.map_cons] at nodup
      exact (List.nodup_cons.mp (List.nodup_append.mp nodup).2.1).1
    rw [addOrUpdate_of_stored split same last, <- same]
    exact inOrder.move_used nodup
  · by_cases room : self.nodes.length < self.kSize.toNat
    · rw [addOrUpdate_of_room member room]
      exact inOrder.append_used member
    · rw [addOrUpdate_of_full member (Nat.le_of_not_lt room)]
      exact inOrder.use_other member

theorem inOrder_cons {age : U160 -> Nat} :
    InOrder age (self :: next) <-> Recency.InOrder NodeInfo.id age self.nodes ∧ InOrder age next := List.forall_mem_cons

/-- A chain that does not store the contact keeps its order. -/
theorem InOrder.use_other (inOrder : InOrder age chain) {id : U160} (absent : id ∉ storedIds chain) :
    InOrder (Recency.ageAfter age id) chain := by
  intro bucket member
  refine (inOrder bucket member).use_other fun inside => absent ?_
  rcases List.mem_map.mp inside with ⟨stored, storedMember, rfl⟩
  exact List.mem_map_of_mem (List.mem_flatMap.mpr ⟨bucket, member, storedMember⟩)

end Bucket

variable {own : U160} {kSize : UInt8} {depth : Nat} {self : Bucket} {next chain chain' : Chain} {node : NodeInfo}
  {age : U160 -> Nat}

/-- The two halves of a bucket that is split in order. -/
theorem Bucket.divided_of_undisturbed (undisturbed : VecOps.Undisturbed (self.nodes.map self.belongsHere)) :
    self.divided = [{ self with nodes := self.nodes.filter self.belongsHere },
      { self.child with nodes := self.nodes.filter fun node => !self.belongsHere node }] := by
  rw [Bucket.divided, Bucket.sifted, VecOps.sift_of_undisturbed undisturbed]

theorem Bucket.InOrder.divided (inOrder : Bucket.InOrder age [self])
    (undisturbed : VecOps.Undisturbed (self.nodes.map self.belongsHere)) : Bucket.InOrder age self.divided := by
  have here : Recency.InOrder NodeInfo.id age self.nodes := inOrder self List.mem_cons_self
  rw [Bucket.divided_of_undisturbed undisturbed]
  refine List.forall_mem_cons.mpr ⟨?_, List.forall_mem_singleton.mpr ?_⟩
  · exact List.Pairwise.sublist List.filter_sublist here
  · exact List.Pairwise.sublist List.filter_sublist here

/-- A split after which the new bucket is full moved at most two contacts, so the
next split keeps the order as well. -/
theorem Bucket.TakesInOrder.divided (takes : self.TakesInOrder node) (full : self.nodes.length = self.kSize.toNat) :
    Bucket.KeepsOrder self.divided node := by
  rcases takes full with ⟨undisturbed, deepest⟩
  rw [Bucket.divided_of_undisturbed undisturbed]
  intro leaves stillFull
  change (self.nodes.filter fun node => !self.belongsHere node).length = self.kSize.toNat at stillFull
  have all : (self.nodes.filter fun node => !self.belongsHere node) = self.nodes := by
    apply List.filter_sublist.eq_of_length
    rw [stillFull, full]
  change VecOps.Undisturbed ((self.nodes.filter fun node => !self.belongsHere node).map _) ∧ _
  dsimp only
  rw [all]
  refine ⟨?_, deepest⟩
  apply VecOps.undisturbed_of_length_le_two
  have few := undisturbed.length_le_two (by
    intro flag member
    rcases List.mem_map.mp member with ⟨node, nodeMember, rfl⟩
    have moved := List.filter_eq_self.mp all node nodeMember
    simpa using moved)
  rw [List.length_map] at few ⊢
  exact few

/-- A bucket at the deepest index holds contacts that share 159 bits only, so a full
one stores the contact behind the others or not at all. -/
theorem Placed.inOrder_of_refused (placed : Placed own kSize 159 self) (takes : self.TakesInOrder node)
    (full : self.nodes.length = self.kSize.toNat) (inOrder : Recency.InOrder NodeInfo.id age self.nodes) :
    Recency.InOrder NodeInfo.id (Recency.ageAfter age node.id) self.nodes := by
  rcases List.eq_nil_or_concat self.nodes with empty | ⟨front, last, split⟩
  · rw [empty]
    exact List.Pairwise.nil
  · rw [List.concat_eq_append] at split
    have frontOnly : node.id ∉ front.map NodeInfo.id := by
      intro member
      rcases List.mem_map.mp member with ⟨stored, storedMember, same⟩
      have dropped : self.nodes.dropLast = front := by rw [split, List.dropLast_concat]
      rcases (takes full).2 stored (dropped.symm ▸ storedMember) same with ⟨other, otherMember, parts⟩
      rw [placed.ownId_eq] at parts
      exact parts (placed.shares other otherMember)
    by_cases same : last.id = node.id
    · have nodup := placed.nodup
      rw [split] at inOrder nodup ⊢
      have moved := inOrder.move_used nodup
      rwa [List.append_nil, same] at moved
    · apply inOrder.use_other
      rw [split, List.map_append]
      intro member
      rcases List.mem_append.mp member with inFront | atEnd
      · exact frontOnly inFront
      · exact same (List.mem_singleton.mp atEnd).symm

/-- Every way through `add` keeps the order under this condition. -/
theorem Added.inOrder (added : Added node chain chain') (live : Live own kSize depth chain)
    (keeps : Bucket.KeepsOrder chain node) (inOrder : Bucket.InOrder age chain) :
    Bucket.InOrder (Recency.ageAfter age node.id) chain' := by
  induction added generalizing depth with
  | @stored self room =>
      have here : Recency.InOrder NodeInfo.id age self.nodes := inOrder self List.mem_cons_self
      exact List.forall_mem_singleton.mpr (Bucket.inOrder_addOrUpdate live.last_placed.nodup here)
  | @refused self deepest full =>
      have placed := live.last_placed
      have here : Recency.InOrder NodeInfo.id age self.nodes := inOrder self List.mem_cons_self
      have last : depth = 159 := by
        rw [<- placed.bucketIndex_eq, deepest]
        rfl
      subst last
      exact List.forall_mem_singleton.mpr (placed.inOrder_of_refused keeps full here)
  | @here self next nonempty belongs =>
      rcases live.uncons nonempty with ⟨placed, differs, behind⟩
      rcases Bucket.inOrder_cons.mp inOrder with ⟨here, later⟩
      refine Bucket.inOrder_cons.mpr ⟨Bucket.inOrder_addOrUpdate placed.nodup here, later.use_other ?_⟩
      intro member
      rcases List.mem_map.mp member with ⟨stored, storedMember, same⟩
      apply placed.belongsHere_iff.mp belongs
      rw [<- same]
      exact behind.shares stored storedMember depth (Nat.lt_succ_self depth)
  | @further self next next' nonempty leaves _ ih =>
      rcases live.uncons nonempty with ⟨placed, differs, behind⟩
      rcases Bucket.inOrder_cons.mp inOrder with ⟨here, later⟩
      refine Bucket.inOrder_cons.mpr ⟨here.use_other ?_, ih behind (keeps.behind nonempty leaves) later⟩
      intro member
      rcases List.mem_map.mp member with ⟨stored, storedMember, same⟩
      have belongs := placed.belongsHere_iff.mpr (same ▸ differs stored storedMember)
      rw [leaves] at belongs
      cases belongs
  | @split self chain' shallow full _ ih =>
      have placed := live.last_placed
      have takes : self.TakesInOrder node := keeps
      exact ih (placed.divided (placed.shallow shallow)) (takes.divided full) (inOrder.divided (takes full).1)

namespace AddHistory

/-- How many calls ago a contact was last added. -/
def sinceAdd (self : AddHistory) (id : U160) : Nat := Recency.sinceLast (self.added.map NodeInfo.id) id

/-- In every bucket the contacts that were added longest ago come first. -/
def InOrder (self : AddHistory) : Prop := Bucket.InOrder self.sinceAdd self.table

def KeepsOrder (self : AddHistory) (node : NodeInfo) : Prop := Bucket.KeepsOrder self.table node

instance (self : AddHistory) : Decidable self.InOrder :=
  inferInstanceAs (Decidable (forall bucket, bucket ∈ self.table -> _))

instance (self : AddHistory) (node : NodeInfo) : Decidable (self.KeepsOrder node) :=
  Bucket.decidableKeepsOrder self.table node

theorem inOrder_start (own : U160) (kSize : UInt8) : (start own kSize).InOrder :=
  List.forall_mem_singleton.mpr List.Pairwise.nil

/-- One call keeps the order under the condition. -/
theorem inOrder_step {self next : AddHistory} (live : Live own kSize 0 self.table) (inOrder : self.InOrder)
    (keeps : self.KeepsOrder node) (stepped : self.step node = some next) : next.InOrder := by
  rcases Option.map_eq_some_iff.mp stepped with ⟨table, added, rfl⟩
  have aged : sinceAdd ⟨table, self.added ++ [node]⟩ = Recency.ageAfter self.sinceAdd node.id := by
    funext id
    rw [sinceAdd, List.map_append, List.map_singleton, Recency.sinceLast_concat]
    rfl
  rw [InOrder, aged]
  exact (live.added added).inOrder live keeps inOrder

end AddHistory

/-- As long as no call splits a bucket out of order or meets a full bucket at the
deepest index, every bucket lists its contacts from the one added longest ago on. -/
theorem recency_kept_of_permitted (own : U160) (kSize : UInt8) (adds : List NodeInfo)
    (permitted : PartialRun.Permitted AddHistory.step AddHistory.KeepsOrder (AddHistory.start own kSize) adds) :
    PartialRun.Always AddHistory.step AddHistory.InOrder (AddHistory.start own kSize) adds := by
  have kept : forall (state : AddHistory) (node : NodeInfo) (next : AddHistory),
      (Live own kSize 0 state.table ∧ state.InOrder) -> state.KeepsOrder node -> state.step node = some next ->
      Live own kSize 0 next.table ∧ next.InOrder :=
    fun _ _ _ holds keeps stepped =>
      ⟨AddHistory.live_step holds.1 stepped, AddHistory.inOrder_step holds.1 holds.2 keeps stepped⟩
  have start : Live own kSize 0 (AddHistory.start own kSize).table ∧ (AddHistory.start own kSize).InOrder :=
    ⟨Live.root own kSize, AddHistory.inOrder_start own kSize⟩
  exact (PartialRun.always_of_permitted kept start permitted).imp fun _ both => both.2

namespace SplitOrder

/-- A contact by its first byte.  From 128 on it belongs to the first bucket of a table
around the id zero. -/
def contact (byte : Nat) : NodeInfo := ⟨.new (BitVec.ofNat 128 byte <<< 120) 0, .v4 0x7f000001 1337⟩

/-- The third call splits the table and updates the contact that stays. -/
def harmless : List NodeInfo := [contact 128, contact 1, contact 128, contact 2]

/-- The last call splits the table, and all other contacts leave the first bucket. -/
def disturbed : List NodeInfo :=
  [contact 1, contact 2, contact 3, contact 4, contact 5, contact 6, contact 7, contact 8, contact 128]

end SplitOrder

open SplitOrder in
theorem recency_kept_of_harmless :
    PartialRun.Permitted AddHistory.step AddHistory.KeepsOrder (AddHistory.start .min 2) harmless ∧
      PartialRun.Always AddHistory.step AddHistory.InOrder (AddHistory.start .min 2) harmless := by
  have permitted : PartialRun.Permitted AddHistory.step AddHistory.KeepsOrder (AddHistory.start .min 2) harmless := by
    decide +kernel
  exact ⟨permitted, recency_kept_of_permitted .min 2 harmless permitted⟩

open SplitOrder in
/-- The split turns round all contacts that leave but the first. -/
theorem split_out_of_order :
    Exists fun history => PartialRun.run AddHistory.step (AddHistory.start .min 8) disturbed = some history ∧
      history.table.map Bucket.nodes = [[contact 128],
        [contact 1, contact 8, contact 7, contact 6, contact 5, contact 4, contact 3, contact 2]] ∧
      ¬history.InOrder := by
  have run : (PartialRun.run AddHistory.step (AddHistory.start .min 8) disturbed).map
      (fun history => (history.table.map Bucket.nodes, decide history.InOrder)) =
      some ([[contact 128],
        [contact 1, contact 8, contact 7, contact 6, contact 5, contact 4, contact 3, contact 2]], false) := by
    decide +kernel
  rcases Option.map_eq_some_iff.mp run with ⟨history, ran, outcome⟩
  rcases Prod.mk.inj outcome with ⟨nodes, disorder⟩
  exact ⟨history, ran, nodes, of_decide_eq_false disorder⟩

end DhtExplorer
