import DhtExplorer.TableReading

namespace DhtExplorer

open BigEndian (Bytes)
open Bencode (Value)

/-!
# The tables that files are read as

Nothing in a file is checked against anything else, so a file can hold any
contacts in any bucket.  Such a table loses contacts and panics later.  What a
file must hold is stated here about its lists: the declared count is their
number, and every list could be the contacts of a bucket at its place.

Exactly these files are read as tables of the live shape, and from then on every
call keeps the shape and returns.
-/

/-- The elements of a file as the reader takes them. -/
def FileHolds (stray : Value -> Option Bytes) (value : Value) (own : U160) (kSize declared : UInt8)
    (rows : List (List NodeInfo)) : Prop :=
  Exists fun ownId => Exists fun size => Exists fun count => Exists fun lists =>
    value = .list (ownId :: size :: count :: lists) ∧ Kmsg.deserializeU160 stray ownId = some own ∧
    Kmsg.asU8 size = some kSize ∧ Kmsg.asU8 count = some declared ∧
    lists.mapM (Bucket.deserializeNodes stray) = some rows

/-- The lists of a file, the first bucket last, fit the buckets of a live table. -/
structure FilePlaced (own : U160) (kSize declared : UInt8) (rows : List (List NodeInfo)) : Prop where
  count_eq : declared.toNat = rows.length
  count_le : rows.length ≤ 160
  length_le : forall nodes, nodes ∈ rows -> nodes.length ≤ kSize.toNat
  shares : forall (depth : Nat) nodes node, rows.reverse[depth]? = some nodes -> node ∈ nodes ->
    SharesPrefix own node.id depth
  differs : forall (depth : Nat) nodes node, rows.reverse[depth]? = some nodes -> node ∈ nodes ->
    depth + 1 < rows.length -> own.getBit depth ≠ node.id.getBit depth
  nodup : (rows.flatten.map NodeInfo.id).Nodup

variable {stray : Value -> Option Bytes} {own : U160} {kSize declared : UInt8} {rows : List (List NodeInfo)}
  {value : Value} {table : Chain}

/-! ## The table behind a file -/

theorem Bucket.nextElement_eq_ok {α : Type} {read : Value -> Option α} {seq rest : List Value} {content : α}
    (returned : Bucket.nextElement read seq = .ok (content, rest)) :
    Exists fun item => seq = item :: rest ∧ read item = some content := by
  cases seq with
  | nil => cases returned
  | cons item others =>
      rw [Bucket.nextElement] at returned
      cases itemRead : read item with
      | none =>
          rw [itemRead] at returned
          cases returned
      | some found =>
          rw [itemRead] at returned
          cases returned
          exact ⟨item, rfl, itemRead⟩

/-- Whatever is read was built from as many lists as were declared, or fewer. -/
theorem deserialize_eq_ok (loaded : Bucket.deserialize stray value = .ok table) :
    Exists fun own => Exists fun kSize => Exists fun declared => Exists fun rows =>
      FileHolds stray value own kSize declared rows ∧ rows ≠ [] ∧ rows.length ≤ declared.toNat ∧
      table = Bucket.tableOf own kSize (declared.toNat - rows.length) rows.reverse := by
  cases value with
  | int _ => cases loaded
  | bytes _ => cases loaded
  | dict _ => cases loaded
  | list seq =>
      rw [Bucket.deserialize, Bucket.visitSeq_eq] at loaded
      rcases Kmsg.bind_eq_ok.mp loaded with ⟨⟨own, afterOwn⟩, ownFound, loaded⟩
      rcases Kmsg.bind_eq_ok.mp loaded with ⟨⟨kSize, afterSize⟩, sizeFound, loaded⟩
      rcases Kmsg.bind_eq_ok.mp loaded with ⟨⟨declared, lists⟩, countFound, loaded⟩
      rcases Kmsg.bind_eq_ok.mp loaded with ⟨deser, buckets, linked⟩
      rcases Bucket.nextElement_eq_ok ownFound with ⟨ownId, rfl, ownRead⟩
      rcases Bucket.nextElement_eq_ok sizeFound with ⟨size, rfl, sizeRead⟩
      rcases Bucket.nextElement_eq_ok countFound with ⟨count, rfl, countRead⟩
      rcases Bucket.readBuckets_cases stray own kSize declared lists with
        ⟨_, refused⟩ | ⟨_, _, panics⟩ | ⟨rows, read, _, enough, deserEq⟩
      · rw [refused] at buckets
        cases buckets
      · rw [panics] at buckets
        cases buckets
      · rw [deserEq] at buckets
        cases buckets
        have nonempty : rows.reverse ≠ [] := by
          intro none
          rw [none] at linked
          cases linked
        rw [Bucket.reduceBuckets_tableOf own kSize _ nonempty] at linked
        cases linked
        exact ⟨own, kSize, declared, rows, ⟨ownId, size, count, lists, rfl, ownRead, sizeRead, countRead, read⟩,
          fun none => nonempty (List.reverse_eq_nil_iff.mpr none), enough, rfl⟩

/-! ## When the table has the live shape -/

theorem toNat_index {declared : UInt8} {rows : List (List NodeInfo)} {depth : Nat}
    (enough : rows.length ≤ declared.toNat) (inside : depth < rows.length) :
    (UInt8.ofNat (declared.toNat - rows.length + depth)).toNat = declared.toNat - rows.length + depth := by
  have bound := declared.toNat_lt
  exact UInt8.toNat_ofNat_of_lt' (by change _ < 2 ^ 8; omega)

theorem length_tableOf_reverse (own : U160) (kSize : UInt8) (index : Nat) (rows : List (List NodeInfo)) :
    (Bucket.tableOf own kSize index rows.reverse).length = rows.length := by
  rw [Bucket.length_tableOf, List.length_reverse]

theorem storedIds_tableOf_perm (own : U160) (kSize : UInt8) (index : Nat) (rows : List (List NodeInfo)) :
    (Bucket.storedIds (Bucket.tableOf own kSize index rows.reverse)).Perm (rows.flatten.map NodeInfo.id) := by
  rw [Bucket.storedIds, Bucket.stored_tableOf]
  exact rows.reverse_perm.flatten.map NodeInfo.id

/-- The lists of a file that was read as a live table fit its buckets. -/
theorem WellPlaced.filePlaced (nonempty : rows ≠ []) (enough : rows.length ≤ declared.toNat)
    (placed : WellPlaced own kSize (Bucket.tableOf own kSize (declared.toNat - rows.length) rows.reverse)) :
    FilePlaced own kSize declared rows := by
  have positive : 0 < rows.length := List.length_pos_iff.mpr nonempty
  have occupied : forall depth, depth < rows.length -> Exists fun nodes => rows.reverse[depth]? = some nodes := by
    intro depth inside
    rw [<- List.length_reverse] at inside
    exact ⟨_, List.getElem?_eq_getElem inside⟩
  have atDepth : forall (depth : Nat) nodes, rows.reverse[depth]? = some nodes ->
      (Bucket.tableOf own kSize (declared.toNat - rows.length) rows.reverse)[depth]? =
        some ⟨own, UInt8.ofNat (declared.toNat - rows.length + depth), kSize, nodes⟩ :=
    fun depth nodes found => Bucket.getElem?_tableOf.mpr ⟨nodes, found, rfl⟩
  refine ⟨?_, ?_, ?_, ?_, ?_, (storedIds_tableOf_perm own kSize _ rows).nodup_iff.mp placed.nodup⟩
  · rcases occupied 0 positive with ⟨nodes, found⟩
    have index := (placed.bucketIndex_eq 0 _ (atDepth 0 nodes found)).1
    rw [toNat_index enough positive] at index
    omega
  · have last : rows.length - 1 < rows.length := Nat.sub_lt positive Nat.one_pos
    rcases occupied (rows.length - 1) last with ⟨nodes, found⟩
    have bound := (placed.bucketIndex_eq _ _ (atDepth _ nodes found)).2
    omega
  · intro nodes member
    rcases List.getElem?_of_mem (List.mem_reverse.mpr member) with ⟨depth, found⟩
    exact placed.length_le depth _ (atDepth depth nodes found)
  · intro depth nodes node found member
    exact placed.shares depth _ node (atDepth depth nodes found) member
  · intro depth nodes node found member longer
    rw [<- length_tableOf_reverse own kSize (declared.toNat - rows.length)] at longer
    exact placed.differs depth _ node (atDepth depth nodes found) member longer

/-- A file whose lists fit is read as a live table. -/
theorem FilePlaced.wellPlaced (file : FilePlaced own kSize declared rows) :
    WellPlaced own kSize (Bucket.tableOf own kSize (declared.toNat - rows.length) rows.reverse) := by
  have start : declared.toNat - rows.length = 0 := by
    rw [file.count_eq]
    exact Nat.sub_self _
  have inside : forall (depth : Nat) nodes, rows.reverse[depth]? = some nodes -> depth < rows.length := by
    intro depth nodes found
    rw [<- List.length_reverse]
    exact (List.getElem?_eq_some_iff.mp found).1
  refine ⟨?_, ?_, ?_, ?_, ?_, (storedIds_tableOf_perm own kSize _ rows).nodup_iff.mpr file.nodup⟩
  · intro depth bucket found
    rcases Bucket.getElem?_tableOf.mp found with ⟨nodes, here, rfl⟩
    have bound := inside depth nodes here
    have count := file.count_le
    exact ⟨by rw [toNat_index (Nat.le_of_eq file.count_eq.symm) bound, start, Nat.zero_add], by omega⟩
  · intro depth bucket found
    rcases Bucket.getElem?_tableOf.mp found with ⟨nodes, here, rfl⟩
    exact ⟨rfl, rfl⟩
  · intro depth bucket found
    rcases Bucket.getElem?_tableOf.mp found with ⟨nodes, here, rfl⟩
    exact file.length_le nodes (List.mem_reverse.mp (List.mem_of_getElem? here))
  · intro depth bucket node found member
    rcases Bucket.getElem?_tableOf.mp found with ⟨nodes, here, rfl⟩
    exact file.shares depth nodes node here member
  · intro depth bucket node found member longer
    rcases Bucket.getElem?_tableOf.mp found with ⟨nodes, here, rfl⟩
    rw [length_tableOf_reverse] at longer
    exact file.differs depth nodes node here member longer

/-! ## What follows for later calls -/

/-- Every later call returns and keeps the shape. -/
def ReturnsEverAfter (own : U160) (kSize : UInt8) (table : Chain) : Prop :=
  forall calls, Exists fun table' => Exists fun answers =>
    PartialRun.replies Bucket.perform table calls = some (table', answers) ∧ WellPlaced own kSize table' ∧
    forall id, Exists fun nodes => Bucket.lookup table' id = some nodes

theorem Live.returnsEverAfter (live : Live own kSize 0 table) : ReturnsEverAfter own kSize table := by
  intro calls
  rcases PartialRun.replies_of_invariant (fun _ call before => perform_live before call) calls live with
    ⟨table', answers, performed, after⟩
  refine ⟨table', answers, performed, after.wellPlaced, fun id => ?_⟩
  rcases lookup_bounds after id with ⟨nodes, found, _⟩
  exact ⟨nodes, found⟩

/-- A file that is read gives a table of the live shape exactly when its count is
the number of its lists and its lists fit.  On every such table all later calls
return. -/
theorem loaded_table_wellPlaced_iff (loaded : Bucket.deserialize stray value = .ok table) :
    Exists fun own => Exists fun kSize => Exists fun declared => Exists fun rows =>
      FileHolds stray value own kSize declared rows ∧
      (WellPlaced own kSize table <-> FilePlaced own kSize declared rows) ∧
      (WellPlaced own kSize table -> ReturnsEverAfter own kSize table) := by
  rcases deserialize_eq_ok loaded with ⟨own, kSize, declared, rows, holds, nonempty, enough, rfl⟩
  refine ⟨own, kSize, declared, rows, holds, ⟨WellPlaced.filePlaced nonempty enough, FilePlaced.wellPlaced⟩,
    fun placed => ?_⟩
  refine (placed.live ?_).returnsEverAfter
  intro none
  have noRows := congrArg List.length none
  rw [length_tableOf_reverse] at noRows
  exact nonempty (List.length_eq_zero_iff.mp noRows)

namespace SampleFile

/-- Two contacts in a bucket for one. -/
def overfull : Value := .list [ownId, .int 1, .int 1, Bucket.serializeNodes [contact, second]]

/-- Two buckets are declared, and one is there. -/
def miscounted : Value := .list [ownId, .int 8, .int 2, Bucket.serializeNodes [contact]]

/-- The second bucket comes first, and has what does not belong in the first one. -/
def divided : Value :=
  .list [ownId, .int 1, .int 2, Bucket.serializeNodes [later], Bucket.serializeNodes [contact]]

def buckets : Chain := Bucket.tableOf .min 1 0 [[contact], [later]]

end SampleFile

/-- A file with two buckets that fit gives a table on which all calls return. -/
theorem loaded_table_wellPlaced_iff_divided :
    Bucket.deserialize (fun _ => none) SampleFile.divided = .ok SampleFile.buckets ∧
      FileHolds (fun _ => none) SampleFile.divided .min 1 2 [[SampleFile.later], [SampleFile.contact]] ∧
      FilePlaced .min 1 2 [[SampleFile.later], [SampleFile.contact]] ∧
      WellPlaced .min 1 SampleFile.buckets ∧ ReturnsEverAfter .min 1 SampleFile.buckets := by
  have loaded : Bucket.deserialize (fun _ => none) SampleFile.divided = .ok SampleFile.buckets := by
    decide +kernel
  rcases loaded_table_wellPlaced_iff loaded with ⟨own, kSize, declared, rows, holds, placedIff, returns⟩
  have given := holds
  rcases given with ⟨ownId, size, count, lists, same, ownRead, sizeRead, countRead, listsRead⟩
  cases same
  have isOwn : Kmsg.deserializeU160 (fun _ => none) SampleFile.ownId = some .min := Kmsg.deserializeU160_serializeU160 _ _
  cases isOwn.symm.trans ownRead
  cases sizeRead
  cases countRead
  have readRows : [Bucket.serializeNodes [SampleFile.later], Bucket.serializeNodes [SampleFile.contact]].mapM
      (Bucket.deserializeNodes fun _ => none) = some [[SampleFile.later], [SampleFile.contact]] := by
    decide +kernel
  cases readRows.symm.trans listsRead
  have live : Live .min 1 0 SampleFile.buckets := by
    refine .split ⟨rfl, rfl, rfl, by decide, by decide, fun _ _ => sharesPrefix_zero _ _, List.nodup_singleton _⟩ ?_
      (.last ⟨rfl, rfl, rfl, by decide, by decide, ?_, List.nodup_singleton _⟩)
    · intro node member
      cases List.mem_singleton.mp member
      decide +kernel
    · intro node member index before
      cases List.mem_singleton.mp member
      rw [Nat.lt_one_iff.mp before]
      decide +kernel
  have placed := live.wellPlaced
  exact ⟨loaded, holds, placedIff.mp placed, placed, returns placed⟩

/-- The reader takes a bucket with two contacts for one, and a table whose first
bucket has index one.  The next contact that belongs behind the first of these is
a panic. -/
theorem loaded_table_not_wellPlaced :
    (Exists fun table => Bucket.deserialize (fun _ => none) SampleFile.overfull = .ok table ∧
      (forall own kSize, ¬WellPlaced own kSize table) ∧
      PartialRun.replies Bucket.perform table [.add SampleFile.later] = none) ∧
    Exists fun table => Bucket.deserialize (fun _ => none) SampleFile.miscounted = .ok table ∧
      forall own kSize, ¬WellPlaced own kSize table := by
  refine ⟨⟨Bucket.tableOf .min 1 0 [[SampleFile.contact, SampleFile.second]], by decide +kernel, ?_,
    by decide +kernel⟩, Bucket.tableOf .min 8 1 [[SampleFile.contact]], by decide +kernel, ?_⟩
  · intro own kSize placed
    have size := (placed.settings_eq 0 _ rfl).2
    have bound := placed.length_le 0 _ rfl
    rw [<- size] at bound
    exact absurd bound (by decide)
  · intro own kSize placed
    have index := (placed.bucketIndex_eq 0 _ rfl).1
    exact absurd index (by decide)

end DhtExplorer
