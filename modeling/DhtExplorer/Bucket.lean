import DhtExplorer.Library.VecOps
import DhtExplorer.NodeInfo

namespace DhtExplorer

/-!
# The bucket chain

Every bucket owns its successor through a pointer that is set once, so a table
is a linked list of buckets.  It is modelled by the list itself: a chain is a
bucket followed by what its `next_bucket` reaches, and the pointer is unset
exactly when nothing follows.

Each operation returns `none` where the source panics: an `unwrap` of an absent
next bucket, an unsigned subtraction below zero, or an overflowing
`bucket_index`.  The recursion of `add` may create the bucket it continues in,
so it is bounded by a number of levels, one for each value of `bucket_index`.
-/

def MAX_BUCKET_INDEX : UInt8 := 159

structure Bucket where
  ownId : U160
  bucketIndex : UInt8
  kSize : UInt8
  nodes : List NodeInfo
deriving DecidableEq, Repr

/-- A bucket together with the buckets behind its `next_bucket` pointer. -/
abbrev Chain := List Bucket

namespace Bucket

def root (ownId : U160) (kSize : UInt8) : Chain :=
  [{ ownId := ownId, bucketIndex := 0, kSize := kSize, nodes := [] }]

def idBelongsHere (self : Bucket) (id : U160) : Bool :=
  (self.ownId.distance id).getBit self.bucketIndex.toNat

def belongsHere (self : Bucket) (node : NodeInfo) : Bool :=
  (self.ownId.distance node.id).getBit self.bucketIndex.toNat

/-- A stored contact moves to the end of its bucket, keeping the address it was
stored with.  A new one is appended while there is room. -/
def addOrUpdate (self : Bucket) (node : NodeInfo) : Bucket :=
  match self.nodes.reverse.findIdx? (fun stored => stored.id == node.id) with
  | some fromEnd =>
      let index := self.nodes.length - 1 - fromEnd
      { self with nodes := VecOps.bubble (self.nodes.length - 1 - index) self.nodes index }
  | none =>
      if self.nodes.length < self.kSize.toNat then { self with nodes := self.nodes ++ [node] }
      else self

/-- The redistribution loop.  Every round either advances the index or shortens
the vector, so the first argument is the number of slots not yet visited. -/
def redistribute (self : Bucket) (addNext : Chain -> NodeInfo -> Option Chain) :
    Nat -> List NodeInfo -> Nat -> Chain -> Option (List NodeInfo × Chain)
  | 0, nodes, _, next => some (nodes, next)
  | remaining + 1, nodes, index, next =>
      match nodes[index]? with
      | none => none
      | some node =>
          if self.belongsHere node then self.redistribute addNext remaining nodes (index + 1) next
          else
            (addNext next node).bind fun next =>
              self.redistribute addNext remaining (VecOps.swapRemove nodes index) index next

/-- The child bucket that `make_next_bucket` installs. -/
def child (self : Bucket) : Bucket where
  ownId := self.ownId
  kSize := self.kSize
  nodes := []
  bucketIndex := self.bucketIndex + 1

/-- Split the last bucket.  The flag is the value returned by the source: it is
false only at the deepest index, where no further bucket exists. -/
def makeNextBucket (self : Bucket) (addNext : Chain -> NodeInfo -> Option Chain) (next : Chain) :
    Option (Bool × Chain) :=
  if self.bucketIndex = MAX_BUCKET_INDEX then some (false, self :: next)
  else if self.bucketIndex.toNat = 255 then none
  else if next.isEmpty then
    (self.redistribute addNext self.nodes.length self.nodes 0 [self.child]).map
      fun (kept, next) => (true, { self with nodes := kept } :: next)
  else some (true, self :: next)

/-- The last two statements of `add`: hand the contact on, or keep it here. -/
def route (addNext : Chain -> NodeInfo -> Option Chain) : Chain -> NodeInfo -> Option Chain
  | [], _ => none
  | self :: next, node =>
      if self.belongsHere node then some (self.addOrUpdate node :: next)
      else
        match next with
        | [] => none
        | _ :: _ => (addNext next node).map (self :: ·)

/-- `add`, descending through at most the given number of buckets. -/
def addWithin : Nat -> Chain -> NodeInfo -> Option Chain
  | 0, _, _ => none
  | _ + 1, [], _ => none
  | levels + 1, self :: next, node =>
      if next.isEmpty && decide (self.nodes.length < self.kSize.toNat) then
        some (self.addOrUpdate node :: next)
      else if next.isEmpty && decide (self.nodes.length = self.kSize.toNat) then
        (self.makeNextBucket (addWithin levels) next).bind fun (proceed, chain) =>
          if proceed then route (addWithin levels) chain node else some chain
      else route (addWithin levels) (self :: next) node

/-- `bucket_index` is a `u8`, so no chain of successive buckets is longer. -/
def BUCKET_LEVELS : Nat := 256

def add (chain : Chain) (node : NodeInfo) : Option Chain := addWithin BUCKET_LEVELS chain node

def lookup : Chain -> U160 -> Option (List NodeInfo)
  | [], _ => none
  | self :: next, id => do
      let kNearest ← if !next.isEmpty && !self.idBelongsHere id then lookup next id else some []
      if self.kSize.toNat < kNearest.length then none
      else
        let gap := self.kSize.toNat - kNearest.length
        let kNearest := if 0 < gap then kNearest ++ self.nodes.take gap else kNearest
        let gap := self.kSize.toNat - kNearest.length
        if 0 < gap && !next.isEmpty then do
          let behind ← lookup next id
          some (kNearest ++ behind.take gap)
        else some kNearest

/-- The chain without the contact, and whether one was deleted. -/
def remove : Chain -> U160 -> Option (Chain × Bool)
  | [], _ => none
  | self :: next, id =>
      if next.isEmpty || self.idBelongsHere id then
        match self.nodes.findIdx? (fun stored => stored.id == id) with
        | some index => some ({ self with nodes := self.nodes.eraseIdx index } :: next, true)
        | none => some (self :: next, false)
      else (remove next id).map fun (next, found) => (self :: next, found)

/-- The contacts of a whole chain, bucket by bucket. -/
def stored (chain : Chain) : List NodeInfo := chain.flatMap Bucket.nodes

def storedIds (chain : Chain) : List U160 := (stored chain).map NodeInfo.id

@[simp] theorem stored_nil : stored [] = [] := rfl

@[simp] theorem stored_cons (self : Bucket) (next : Chain) :
    stored (self :: next) = self.nodes ++ stored next := rfl

@[simp] theorem storedIds_nil : storedIds [] = [] := rfl

@[simp] theorem storedIds_cons (self : Bucket) (next : Chain) :
    storedIds (self :: next) = self.nodes.map NodeInfo.id ++ storedIds next := by
  rw [storedIds, stored_cons, List.map_append]
  rfl

/-! ## What one operation does to one bucket -/

@[simp] theorem addOrUpdate_ownId (self : Bucket) (node : NodeInfo) :
    (self.addOrUpdate node).ownId = self.ownId := by
  unfold addOrUpdate
  split
  · rfl
  · split <;> rfl

@[simp] theorem addOrUpdate_kSize (self : Bucket) (node : NodeInfo) :
    (self.addOrUpdate node).kSize = self.kSize := by
  unfold addOrUpdate
  split
  · rfl
  · split <;> rfl

@[simp] theorem addOrUpdate_bucketIndex (self : Bucket) (node : NodeInfo) :
    (self.addOrUpdate node).bucketIndex = self.bucketIndex := by
  unfold addOrUpdate
  split
  · rfl
  · split <;> rfl

private theorem findIdx?_reverse_eq_none (nodes : List NodeInfo) (id : U160) :
    nodes.reverse.findIdx? (fun stored => stored.id == id) = none <-> id ∉ nodes.map NodeInfo.id := by
  rw [List.findIdx?_eq_none_iff]
  simp only [List.mem_reverse, beq_eq_false_iff_ne, List.mem_map, not_exists, not_and]

/-- A stored id only changes its position. -/
theorem addOrUpdate_of_mem {self : Bucket} {node : NodeInfo}
    (member : node.id ∈ self.nodes.map NodeInfo.id) :
    (self.addOrUpdate node).nodes.Perm self.nodes := by
  unfold addOrUpdate
  split
  · exact VecOps.bubble_perm _ _ _
  · rename_i absent
    exact absurd member ((findIdx?_reverse_eq_none _ _).mp absent)

/-- The record that was found moves behind all others. -/
theorem addOrUpdate_of_stored {self : Bucket} {node stored : NodeInfo} {before after : List NodeInfo}
    (split : self.nodes = before ++ stored :: after) (same : stored.id = node.id)
    (last : node.id ∉ after.map NodeInfo.id) :
    self.addOrUpdate node = { self with nodes := before ++ after ++ [stored] } := by
  have fromEnd : self.nodes.reverse.findIdx? (fun stored => stored.id == node.id) = some after.length := by
    rw [split, List.reverse_append, List.reverse_cons, List.append_assoc, List.singleton_append,
      List.findIdx?_append, (findIdx?_reverse_eq_none after node.id).mpr last, List.findIdx?_cons,
      beq_iff_eq.mpr same, if_pos rfl, List.length_reverse, Option.map_some, Nat.zero_add]
    rfl
  have length : self.nodes.length = before.length + after.length + 1 := by
    rw [split, List.length_append, List.length_cons, Nat.add_assoc]
  have index : self.nodes.length - 1 - after.length = before.length := by omega
  have steps : self.nodes.length - 1 - before.length = after.length := by omega
  unfold addOrUpdate
  rw [fromEnd]
  dsimp only
  rw [index, steps, split, VecOps.bubble_append_cons]

theorem addOrUpdate_of_room {self : Bucket} {node : NodeInfo}
    (absent : node.id ∉ self.nodes.map NodeInfo.id) (room : self.nodes.length < self.kSize.toNat) :
    self.addOrUpdate node = { self with nodes := self.nodes ++ [node] } := by
  unfold addOrUpdate
  rw [(findIdx?_reverse_eq_none _ _).mpr absent]
  exact if_pos room

theorem addOrUpdate_of_full {self : Bucket} {node : NodeInfo}
    (absent : node.id ∉ self.nodes.map NodeInfo.id) (full : self.kSize.toNat ≤ self.nodes.length) :
    self.addOrUpdate node = self := by
  unfold addOrUpdate
  rw [(findIdx?_reverse_eq_none _ _).mpr absent]
  exact if_neg (Nat.not_lt.mpr full)

/-- Everything `add_or_update` can do to the contacts of a bucket. -/
theorem addOrUpdate_cases (self : Bucket) (node : NodeInfo) :
    (node.id ∈ self.nodes.map NodeInfo.id ∧ (self.addOrUpdate node).nodes.Perm self.nodes) ∨
    (node.id ∉ self.nodes.map NodeInfo.id ∧ self.nodes.length < self.kSize.toNat ∧
      (self.addOrUpdate node).nodes = self.nodes ++ [node]) ∨
    (node.id ∉ self.nodes.map NodeInfo.id ∧ self.kSize.toNat ≤ self.nodes.length ∧
      (self.addOrUpdate node).nodes = self.nodes) := by
  by_cases member : node.id ∈ self.nodes.map NodeInfo.id
  · exact Or.inl ⟨member, addOrUpdate_of_mem member⟩
  · by_cases room : self.nodes.length < self.kSize.toNat
    · exact Or.inr (Or.inl ⟨member, room, by rw [addOrUpdate_of_room member room]⟩)
    · have full := Nat.le_of_not_lt room
      exact Or.inr (Or.inr ⟨member, full, by rw [addOrUpdate_of_full member full]⟩)

theorem mem_addOrUpdate {self : Bucket} {node stored : NodeInfo}
    (member : stored ∈ (self.addOrUpdate node).nodes) : stored ∈ self.nodes ∨ stored = node := by
  rcases addOrUpdate_cases self node with ⟨_, perm⟩ | ⟨_, _, appended⟩ | ⟨_, _, same⟩
  · exact Or.inl (perm.mem_iff.mp member)
  · rw [appended, List.mem_append, List.mem_singleton] at member
    exact member
  · exact Or.inl (same ▸ member)

theorem mem_addOrUpdate_of_mem {self : Bucket} {node stored : NodeInfo}
    (member : stored ∈ self.nodes) : stored ∈ (self.addOrUpdate node).nodes := by
  rcases addOrUpdate_cases self node with ⟨_, perm⟩ | ⟨_, _, appended⟩ | ⟨_, _, same⟩
  · exact perm.mem_iff.mpr member
  · rw [appended]
    exact List.mem_append_left _ member
  · rwa [same]

/-- Whatever the bucket does with room left, it holds the id afterwards. -/
theorem id_mem_addOrUpdate {self : Bucket} {node : NodeInfo}
    (room : self.nodes.length < self.kSize.toNat) :
    node.id ∈ (self.addOrUpdate node).nodes.map NodeInfo.id := by
  rcases addOrUpdate_cases self node with ⟨member, perm⟩ | ⟨_, _, appended⟩ | ⟨_, full, _⟩
  · exact (perm.map NodeInfo.id).mem_iff.mpr member
  · rw [appended, List.map_append]
    exact List.mem_append_right _ List.mem_cons_self
  · exact absurd room (Nat.not_lt.mpr full)

theorem length_addOrUpdate_le {self : Bucket} (node : NodeInfo)
    (bound : self.nodes.length ≤ self.kSize.toNat) :
    (self.addOrUpdate node).nodes.length ≤ self.kSize.toNat := by
  rcases addOrUpdate_cases self node with ⟨_, perm⟩ | ⟨_, room, appended⟩ | ⟨_, _, same⟩
  · rw [perm.length_eq]
    exact bound
  · rw [appended, List.length_append]
    exact room
  · rw [same]
    exact bound

theorem nodup_addOrUpdate {self : Bucket} (node : NodeInfo)
    (nodup : (self.nodes.map NodeInfo.id).Nodup) :
    ((self.addOrUpdate node).nodes.map NodeInfo.id).Nodup := by
  rcases addOrUpdate_cases self node with ⟨_, perm⟩ | ⟨absent, _, appended⟩ | ⟨_, _, same⟩
  · exact (perm.map NodeInfo.id).nodup_iff.mpr nodup
  · rw [appended, List.map_append, List.map_singleton]
    exact List.nodup_append.mpr ⟨nodup, List.nodup_singleton _, by
      intro first member second same equal
      rw [List.mem_singleton] at same
      exact absent (same ▸ equal ▸ member)⟩
  · rw [same]
    exact nodup

end Bucket
end DhtExplorer
