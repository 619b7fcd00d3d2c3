import DhtExplorer.Restart

namespace DhtExplorer

open BigEndian (Bytes)
open Bencode (Codec Value)

/-!
# Reading any table file

A file holds the own id, the bucket size, the number of buckets and then one list
of contacts for each bucket, the deepest bucket first.  The reader counts the
buckets down from the declared number, but never compares the two.  It refuses
an element of the wrong kind.  A missing element, or one list more than declared,
is a panic, and so is a file without any list.

An own id or a record that is no byte string is read as what the library hands over
for it, if anything.

A file that is read gives a table whose last list is its first bucket.  The
table has the shape of a live table only when the file has it already.
-/

namespace Bucket

/-- Successive buckets with the given contacts. -/
def tableOf (ownId : U160) (kSize : UInt8) : Nat -> List (List NodeInfo) -> Chain
  | _, [] => []
  | index, nodes :: rest =>
      { ownId := ownId, kSize := kSize, bucketIndex := UInt8.ofNat index, nodes := nodes } ::
        tableOf ownId kSize (index + 1) rest

/-- The lists are read, or one of them is refused, before the count is used up. -/
def ListsAnswered (stray : Value -> Option Bytes) (declared : Nat) (lists : List Value) : Prop :=
  (Exists fun item => item ∈ lists.take (declared + 1) ∧ deserializeNodes stray item = none) ∨
    (lists ≠ [] ∧ lists.length ≤ declared)

/-- The files that the reader answers with a table or an error. -/
def Answered (stray : Value -> Option Bytes) : Value -> Prop
  | .list [] => False
  | .list [ownId] => Kmsg.deserializeU160 stray ownId = none
  | .list [ownId, kSize] => Kmsg.deserializeU160 stray ownId = none ∨ Kmsg.asU8 kSize = none
  | .list (ownId :: kSize :: count :: lists) =>
      Kmsg.deserializeU160 stray ownId = none ∨ Kmsg.asU8 kSize = none ∨
        forall declared, Kmsg.asU8 count = some declared -> ListsAnswered stray declared.toNat lists
  | _ => True

/-! ## The loop over the lists -/

variable {stray : Value -> Option Bytes} {own : U160} {kSize bucketIndex : UInt8} {lists : List Value}
  {rows : List (List NodeInfo)}

theorem tableOf_append (own : U160) (kSize : UInt8) (index : Nat) (front back : List (List NodeInfo)) :
    tableOf own kSize index (front ++ back) =
      tableOf own kSize index front ++ tableOf own kSize (index + front.length) back := by
  induction front generalizing index with
  | nil => rfl
  | cons nodes rest ih =>
      rw [List.cons_append, tableOf, ih, List.length_cons, tableOf, List.cons_append, Nat.add_assoc,
        Nat.add_comm 1]

theorem getElem?_tableOf {index offset : Nat} {bucket : Bucket} :
    (tableOf own kSize index rows)[offset]? = some bucket <->
      Exists fun nodes => rows[offset]? = some nodes ∧
        bucket = { ownId := own, kSize := kSize, bucketIndex := UInt8.ofNat (index + offset), nodes := nodes } := by
  induction rows generalizing index offset with
  | nil =>
      constructor
      · intro found
        cases found
      · rintro ⟨_, found, _⟩
        cases found
  | cons nodes rest ih =>
      cases offset with
      | zero =>
          rw [tableOf, List.getElem?_cons_zero, List.getElem?_cons_zero, Option.some.injEq]
          constructor
          · rintro rfl
            exact ⟨nodes, rfl, rfl⟩
          · rintro ⟨_, found, rfl⟩
            cases found
            rfl
      | succ offset =>
          rw [tableOf, List.getElem?_cons_succ, List.getElem?_cons_succ, ih, Nat.add_assoc, Nat.add_comm 1]

theorem length_tableOf (own : U160) (kSize : UInt8) (index : Nat) (rows : List (List NodeInfo)) :
    (tableOf own kSize index rows).length = rows.length := by
  induction rows generalizing index with
  | nil => rfl
  | cons nodes rest ih => rw [tableOf, List.length_cons, ih, List.length_cons]

theorem stored_tableOf (own : U160) (kSize : UInt8) (index : Nat) (rows : List (List NodeInfo)) :
    stored (tableOf own kSize index rows) = rows.flatten := by
  induction rows generalizing index with
  | nil => rfl
  | cons nodes rest ih => rw [tableOf, stored_cons, ih, List.flatten_cons]

theorem toNat_pred (positive : bucketIndex ≠ 0) : (bucketIndex - 1).toNat + 1 = bucketIndex.toNat := by
  have above : 0 < bucketIndex.toNat :=
    Nat.pos_of_ne_zero fun zero => positive (UInt8.toNat_inj.mp zero)
  rw [UInt8.toNat_sub_of_le _ _ (by rw [UInt8.le_iff_toNat_le]; exact above)]
  exact Nat.sub_add_cancel above

theorem readBuckets_cons {item : Value} {nodes : List NodeInfo} (positive : bucketIndex ≠ 0)
    (read : deserializeNodes stray item = some nodes) :
    readBuckets stray own kSize bucketIndex (item :: lists) =
      (readBuckets stray own kSize (bucketIndex - 1) lists).map fun deser =>
        { ownId := own, kSize := kSize, bucketIndex := bucketIndex - 1, nodes := nodes } :: deser := by
  rw [readBuckets, read]
  exact if_neg positive

/-- Lists that are all read, and not too many, become buckets. -/
theorem readBuckets_of_read (read : lists.mapM (deserializeNodes stray) = some rows)
    (declared : rows.length ≤ bucketIndex.toNat) :
    readBuckets stray own kSize bucketIndex lists =
      .ok (tableOf own kSize (bucketIndex.toNat - rows.length) rows.reverse).reverse := by
  induction lists generalizing bucketIndex rows with
  | nil =>
      rw [List.mapM_nil] at read
      cases read
      rfl
  | cons item lists ih =>
      rw [List.mapM_cons] at read
      rcases Option.bind_eq_some_iff.mp read with ⟨nodes, itemRead, others⟩
      rcases Option.bind_eq_some_iff.mp others with ⟨later, listsRead, same⟩
      cases same
      have positive : bucketIndex ≠ 0 := by
        rintro rfl
        exact Nat.not_succ_le_zero _ declared
      have before := toNat_pred positive
      rw [List.length_cons] at declared
      have start : bucketIndex.toNat - (nodes :: later).length = (bucketIndex - 1).toNat - later.length := by
        rw [List.length_cons]
        omega
      have last : (bucketIndex - 1).toNat - later.length + later.reverse.length = (bucketIndex - 1).toNat := by
        rw [List.length_reverse]
        omega
      rw [readBuckets_cons positive itemRead, ih listsRead (by omega), start, List.reverse_cons, tableOf_append,
        last, List.reverse_append, tableOf, UInt8.ofNat_toNat]
      rfl

theorem readBuckets_of_unreadable
    (unreadable : Exists fun item => item ∈ lists.take (bucketIndex.toNat + 1) ∧ deserializeNodes stray item = none) :
    readBuckets stray own kSize bucketIndex lists = .error .refused := by
  induction lists generalizing bucketIndex with
  | nil =>
      rcases unreadable with ⟨item, member, _⟩
      rw [List.take_nil] at member
      cases member
  | cons first lists ih =>
      rcases unreadable with ⟨item, member, failed⟩
      cases read : deserializeNodes stray first with
      | none => rw [readBuckets, read]
      | some nodes =>
          rw [List.take_succ_cons] at member
          rcases List.mem_cons.mp member with rfl | later
          · rw [read] at failed
            cases failed
          · have positive : bucketIndex ≠ 0 := by
              rintro rfl
              cases later
            rw [readBuckets_cons positive read, ih ⟨item, (toNat_pred positive).symm ▸ later, failed⟩]
            rfl

/-- One readable list more than declared is one too many. -/
theorem readBuckets_of_surplus (readable : forall item, item ∈ lists.take (bucketIndex.toNat + 1) ->
      deserializeNodes stray item ≠ none) (surplus : bucketIndex.toNat < lists.length) :
    readBuckets stray own kSize bucketIndex lists = .error .panics := by
  induction lists generalizing bucketIndex with
  | nil => exact absurd surplus (Nat.not_lt_zero _)
  | cons first lists ih =>
      rw [List.take_succ_cons] at readable
      cases read : deserializeNodes stray first with
      | none => exact absurd read (readable first List.mem_cons_self)
      | some nodes =>
          by_cases zero : bucketIndex = 0
          · rw [readBuckets, read]
            exact if_pos zero
          · have before := toNat_pred zero
            rw [List.length_cons] at surplus
            rw [readBuckets_cons zero read, ih ?_ (by omega)]
            · rfl
            · intro item member
              rw [before] at member
              exact readable item (List.mem_cons_of_mem _ member)

/-- Every element is read, or one of them is not. -/
theorem mapM_or_unreadable (stray : Value -> Option Bytes) (lists : List Value) :
    (Exists fun rows => lists.mapM (deserializeNodes stray) = some rows ∧ rows.length = lists.length) ∨
      Exists fun item => item ∈ lists ∧ deserializeNodes stray item = none := by
  induction lists with
  | nil => exact Or.inl ⟨[], rfl, rfl⟩
  | cons first lists ih =>
      cases read : deserializeNodes stray first with
      | none => exact Or.inr ⟨first, List.mem_cons_self, read⟩
      | some nodes =>
          rcases ih with ⟨rows, others, sameLength⟩ | ⟨item, member, failed⟩
          · refine Or.inl ⟨nodes :: rows, ?_, congrArg (· + 1) sameLength⟩
            rw [List.mapM_cons, read, others]
            rfl
          · exact Or.inr ⟨item, List.mem_cons_of_mem _ member, failed⟩

/-- The three ends of the loop. -/
theorem readBuckets_cases (stray : Value -> Option Bytes) (own : U160) (kSize bucketIndex : UInt8) (lists : List Value) :
    ((Exists fun item => item ∈ lists.take (bucketIndex.toNat + 1) ∧ deserializeNodes stray item = none) ∧
      readBuckets stray own kSize bucketIndex lists = .error .refused) ∨
    ((forall item, item ∈ lists.take (bucketIndex.toNat + 1) -> deserializeNodes stray item ≠ none) ∧
      bucketIndex.toNat < lists.length ∧ readBuckets stray own kSize bucketIndex lists = .error .panics) ∨
    Exists fun rows => lists.mapM (deserializeNodes stray) = some rows ∧ rows.length = lists.length ∧
      rows.length ≤ bucketIndex.toNat ∧
      readBuckets stray own kSize bucketIndex lists =
        .ok (tableOf own kSize (bucketIndex.toNat - rows.length) rows.reverse).reverse := by
  by_cases unreadable : Exists fun item => item ∈ lists.take (bucketIndex.toNat + 1) ∧ deserializeNodes stray item = none
  · exact Or.inl ⟨unreadable, readBuckets_of_unreadable unreadable⟩
  · have readable : forall item, item ∈ lists.take (bucketIndex.toNat + 1) -> deserializeNodes stray item ≠ none :=
      fun item member failed => unreadable ⟨item, member, failed⟩
    by_cases surplus : bucketIndex.toNat < lists.length
    · exact Or.inr (Or.inl ⟨readable, surplus, readBuckets_of_surplus readable surplus⟩)
    · have declared := Nat.le_of_not_lt surplus
      have all : lists.take (bucketIndex.toNat + 1) = lists := List.take_of_length_le (Nat.le_succ_of_le declared)
      rcases mapM_or_unreadable stray lists with ⟨rows, read, sameLength⟩ | failed
      · rw [<- sameLength] at declared
        exact Or.inr (Or.inr ⟨rows, read, sameLength, declared, readBuckets_of_read read declared⟩)
      · exact absurd (all.symm ▸ failed) unreadable

/-! ## When the reader panics -/

theorem reduceBuckets_tableOf (own : U160) (kSize : UInt8) (index : Nat) (nonempty : rows ≠ []) :
    reduceBuckets (tableOf own kSize index rows).reverse = .ok (tableOf own kSize index rows) := by
  apply reduceBuckets_reverse
  cases rows with
  | nil => exact absurd rfl nonempty
  | cons nodes rest => exact List.cons_ne_nil _ _

/-- Linking the buckets adds the one panic of a file without lists. -/
theorem readBuckets_answered_iff (stray : Value -> Option Bytes) (own : U160) (kSize bucketIndex : UInt8)
    (lists : List Value) :
    (readBuckets stray own kSize bucketIndex lists).bind reduceBuckets ≠ .error .panics <->
      ListsAnswered stray bucketIndex.toNat lists := by
  rcases readBuckets_cases stray own kSize bucketIndex lists with
    ⟨unreadable, refused⟩ | ⟨readable, surplus, panics⟩ | ⟨rows, read, sameLength, declared, buckets⟩
  · rw [refused]
    refine iff_of_true ?_ (Or.inl unreadable)
    intro impossible
    cases impossible
  · rw [panics]
    apply iff_of_false (fun impossible => impossible rfl)
    rintro (⟨item, member, failed⟩ | ⟨_, enough⟩)
    · exact readable item member failed
    · exact absurd surplus (Nat.not_lt.mpr enough)
  · rw [buckets]
    change reduceBuckets _ ≠ _ <-> _
    by_cases empty : rows = []
    · have noLists : lists = [] := by
        rw [empty] at sameLength
        exact List.length_eq_zero_iff.mp sameLength.symm
      rw [empty, noLists]
      apply iff_of_false (fun impossible => impossible rfl)
      rintro (⟨item, member, _⟩ | ⟨nonempty, _⟩)
      · cases member
      · exact nonempty rfl
    · rw [reduceBuckets_tableOf own kSize _ fun none => empty (List.reverse_eq_nil_iff.mp none)]
      refine iff_of_true ?_ (Or.inr ⟨?_, sameLength ▸ declared⟩)
      · intro impossible
        cases impossible
      · intro noLists
        rw [noLists] at sameLength
        exact empty (List.length_eq_zero_iff.mp sameLength)

/-! ## The elements before the lists -/

theorem visitSeq_eq (stray : Value -> Option Bytes) (seq : List Value) :
    visitSeq stray seq =
      (nextElement (Kmsg.deserializeU160 stray) seq).bind fun ownId =>
        (nextElement Kmsg.asU8 ownId.2).bind fun size =>
          (nextElement Kmsg.asU8 size.2).bind fun count =>
            (readBuckets stray ownId.1 size.1 count.1 count.2).bind reduceBuckets := rfl

/-- A missing element of the header is a panic. -/
theorem nextElement_nil_panics {α : Type} (read : Value -> Option α)
    (continue' : α × List Value -> Except LoadError Chain) :
    (nextElement read []).bind continue' = .error .panics := rfl

/-- An unreadable one is an error, and a readable one leaves it to the rest. -/
theorem nextElement_cons_answered_iff {α : Type} {read : Value -> Option α} {item : Value} {rest : List Value}
    {continue' : α × List Value -> Except LoadError Chain} :
    (nextElement read (item :: rest)).bind continue' ≠ .error .panics <->
      read item = none ∨
        Exists fun content => read item = some content ∧ continue' (content, rest) ≠ .error .panics := by
  rw [nextElement]
  cases itemRead : read item with
  | none =>
      refine iff_of_true ?_ (Or.inl rfl)
      intro impossible
      cases impossible
  | some content =>
      constructor
      · intro answered
        exact Or.inr ⟨content, rfl, answered⟩
      · rintro (impossible | ⟨other, same, answered⟩)
        · cases impossible
        · cases same
          exact answered

theorem visitSeq_answered_iff (stray : Value -> Option Bytes) (seq : List Value) :
    visitSeq stray seq ≠ .error .panics <-> Answered stray (.list seq) := by
  rw [visitSeq_eq]
  match seq with
  | [] => simp only [nextElement_nil_panics, ne_eq, not_true_eq_false, Answered]
  | [ownId] =>
      rw [nextElement_cons_answered_iff, Answered]
      simp only [nextElement_nil_panics, ne_eq, not_true_eq_false, and_false, exists_false, or_false]
  | [ownId, kSize] =>
      rw [nextElement_cons_answered_iff, Answered]
      simp only [nextElement_cons_answered_iff, nextElement_nil_panics, ne_eq, not_true_eq_false, and_false,
        exists_false, or_false]
      cases Kmsg.deserializeU160 stray ownId <;> simp
  | ownId :: kSize :: count :: lists =>
      rw [nextElement_cons_answered_iff, Answered]
      simp only [nextElement_cons_answered_iff, readBuckets_answered_iff]
      cases Kmsg.deserializeU160 stray ownId <;> cases Kmsg.asU8 kSize <;> cases Kmsg.asU8 count <;> simp

theorem deserialize_answered_iff (stray : Value -> Option Bytes) (value : Value) :
    deserialize stray value ≠ .error .panics <-> Answered stray value := by
  have refused : (.error .refused : Except LoadError Chain) ≠ .error .panics := by
    intro impossible
    cases impossible
  cases value with
  | int _ => exact iff_of_true refused trivial
  | bytes _ => exact iff_of_true refused trivial
  | dict _ => exact iff_of_true refused trivial
  | list seq => exact visitSeq_answered_iff stray seq

end Bucket

/-- Only a panic of the reader keeps the router from starting. -/
theorem Router.load_isSome_iff {codec : Codec} {file : Bytes} {value : Value}
    (holds : codec.fromSlice file = some value) (me : NodeInfo) :
    (Router.load codec (some file) me).isSome <->
      Bucket.deserialize (codec.stray file []) value ≠ .error .panics := by
  have loaded : Bucket.loadFromFile codec (some file) = Bucket.deserialize (codec.stray file []) value := by
    rw [Bucket.loadFromFile, holds]
  rw [Router.load, loaded]
  cases Bucket.deserialize (codec.stray file []) value with
  | ok table => exact iff_of_true rfl (by simp)
  | error reason => cases reason <;> simp

/-- The reader panics on no file but those that are not answered, and then the
router cannot fall back to an empty table. -/
theorem table_reading_answers_iff (value : Value) :
    (forall stray, Bucket.deserialize stray value ≠ .error .panics <-> Bucket.Answered stray value) ∧
      forall (codec : Codec) (file : Bytes) (me : NodeInfo), codec.fromSlice file = some value ->
        ((Router.load codec (some file) me).isSome <-> Bucket.Answered (codec.stray file []) value) := by
  refine ⟨fun stray => Bucket.deserialize_answered_iff stray value, fun codec file me holds => ?_⟩
  rw [Router.load_isSome_iff holds, Bucket.deserialize_answered_iff]

namespace SampleFile

def ownId : Value := Kmsg.serializeU160 .min

def contact : NodeInfo := ⟨.new 0x80000000000000000000000000000000 0, .v4 0x0a000001 6881⟩

def second : NodeInfo := ⟨.new 0xc0000000000000000000000000000000 0, .v4 0x0a000002 6881⟩

/-- It belongs behind the first bucket. -/
def later : NodeInfo := ⟨.new 1 0, .v4 0x0a000003 6881⟩

end SampleFile

/-- An empty list misses its first element, a declared count of zero is exceeded
by the first list, and a file without lists has no first bucket.  A number in place
of the own id is read as its text, and then the next element is missed. -/
theorem table_reading_panics :
    (forall stray, Bucket.deserialize stray (.list []) = .error .panics ∧
      Bucket.deserialize stray (.list [SampleFile.ownId, .int 8, .int 0, .list []]) = .error .panics ∧
      Bucket.deserialize stray (.list [SampleFile.ownId, .int 8, .int 1]) = .error .panics) ∧
      Bucket.deserialize (Bencode.textCodec.stray [] []) (.list [.int 5]) = .error .panics ∧
      forall me, Router.load Bencode.textCodec (some (Bencode.textCodec.toVec (.list []))) me = none := by
  refine ⟨fun stray => ⟨rfl, rfl, rfl⟩, by decide +kernel, fun me => ?_⟩
  have holds := Bencode.textCodec.faithful (.list []) (.list fun _ member => absurd member List.not_mem_nil)
  apply Option.not_isSome_iff_eq_none.mp
  intro starts
  exact (Router.load_isSome_iff holds me).mp starts rfl

end DhtExplorer
