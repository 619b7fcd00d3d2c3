import Mathlib.Data.List.Lex
import Mathlib.Data.List.Sort
import DhtExplorer.Library.BigEndian

/-!
# Bencode values and records

Bencode has integers, byte strings, lists and dictionaries.  A record with
optional fields is written as a dictionary: absent fields are left out and the
entries are sorted by key.  It is read back field by field, so the order of the
entries does not matter, but a key that occurs twice is refused.

The text form is kept apart.  A codec is any pair of functions that reads back
the values a writer can produce; nothing else about it is used.  A reader that asks
for a byte string may find something else in a text.  What it is handed then is left
to the codec too.
-/

namespace Bencode

open BigEndian (Bytes)

inductive Value where
  | int (number : Int)
  | bytes (text : Bytes)
  | list (items : List Value)
  | dict (entries : List (Bytes × Value))

/-- Keys are compared bytewise. -/
def keyOrder (key : Bytes) : List Nat := key.map UInt8.toNat

theorem keyOrder_injective : Function.Injective keyOrder :=
  List.map_injective_iff.mpr fun _ _ equal => UInt8.toNat_inj.mp equal

/-- The values a writer produces: integers that fit a signed or unsigned word of
64 bits, and dictionaries with strictly increasing keys. -/
inductive Value.Canonical : Value -> Prop where
  | int {number : Int} (lower : -2 ^ 63 ≤ number) (upper : number < 2 ^ 64) : Canonical (.int number)
  | bytes (text : Bytes) : Canonical (.bytes text)
  | list {items : List Value} (canonical : forall item, item ∈ items -> Canonical item) :
      Canonical (.list items)
  | dict {entries : List (Bytes × Value)}
      (sorted : entries.Pairwise fun first second => keyOrder first.1 < keyOrder second.1)
      (canonical : forall entry, entry ∈ entries -> Canonical entry.2) : Canonical (.dict entries)

/-- What a reader gets that asks for a byte string where another value stands, if it
is not refused.  The keys that lead to the value tell the places apart. -/
abbrev Stray := List Bytes -> Value -> Option Bytes

/-- The places below a key. -/
def Stray.under (stray : Stray) (key : Bytes) : Stray := fun keys => stray (key :: keys)

/-- A text form that reads back every canonical value.  What is handed over for a
stray value may depend on how the text spells it. -/
structure Codec where
  toVec : Value -> Bytes
  fromSlice : Bytes -> Option Value
  stray : Bytes -> Stray
  faithful : forall value, value.Canonical -> fromSlice (toVec value) = some value

/-! ## Writing records -/

/-- The fields that are present. -/
def present (fields : List (Bytes × Option Value)) : List (Bytes × Value) :=
  fields.filterMap fun field => field.2.map fun value => (field.1, value)

def entryOrder (first second : Bytes × Value) : Prop := keyOrder first.1 ≤ keyOrder second.1

instance : DecidableRel entryOrder :=
  fun first second => inferInstanceAs (Decidable (keyOrder first.1 ≤ keyOrder second.1))

/-- The entries of a record in the order in which they are written. -/
def entriesOf (fields : List (Bytes × Option Value)) : List (Bytes × Value) :=
  (present fields).insertionSort entryOrder

def record (fields : List (Bytes × Option Value)) : Value := .dict (entriesOf fields)

variable {fields : List (Bytes × Option Value)} {key : Bytes} {value : Value}

theorem mem_present : (key, value) ∈ present fields <-> (key, some value) ∈ fields := by
  rw [present, List.mem_filterMap]
  constructor
  · rintro ⟨⟨name, content⟩, member, written⟩
    rcases Option.map_eq_some_iff.mp written with ⟨inner, contentEq, equal⟩
    cases equal
    exact contentEq ▸ member
  · intro member
    exact ⟨(key, some value), member, rfl⟩

/-- The present keys are among the declared ones, in the same order. -/
theorem present_keys_sublist (fields : List (Bytes × Option Value)) :
    ((present fields).map Prod.fst).Sublist (fields.map Prod.fst) := by
  induction fields with
  | nil => exact List.Sublist.refl _
  | cons field rest ih =>
      rcases field with ⟨name, content⟩
      cases content with
      | none => exact ih.trans (List.sublist_cons_self _ _)
      | some inner => exact ih.cons_cons name

theorem entriesOf_perm (fields : List (Bytes × Option Value)) :
    (entriesOf fields).Perm (present fields) := List.perm_insertionSort _ _

theorem nodup_entriesOf_keys (nodup : (fields.map Prod.fst).Nodup) :
    ((entriesOf fields).map Prod.fst).Nodup :=
  (((entriesOf_perm fields).map Prod.fst).nodup_iff).mpr (nodup.sublist (present_keys_sublist fields))

theorem canonical_record (nodup : (fields.map Prod.fst).Nodup)
    (canonical : forall key value, (key, some value) ∈ fields -> value.Canonical) :
    (record fields).Canonical := by
  have total : Std.Total entryOrder := ⟨fun first second => le_total (keyOrder first.1) (keyOrder second.1)⟩
  have transitive : IsTrans (Bytes × Value) entryOrder := ⟨fun _ _ _ => le_trans⟩
  have sorted : (entriesOf fields).Pairwise entryOrder := List.pairwise_insertionSort _ _
  have different : (entriesOf fields).Pairwise fun first second => first.1 ≠ second.1 :=
    List.pairwise_map.mp (nodup_entriesOf_keys nodup)
  refine .dict (sorted.imp₂ ?_ different) ?_
  · intro first second ordered apart
    exact lt_of_le_of_ne ordered fun equal => apart (keyOrder_injective equal)
  · rintro ⟨key, value⟩ member
    exact canonical key value (mem_present.mp ((entriesOf_perm fields).mem_iff.mp member))

/-! ## Reading records -/

/-- The value under a key, if any.  A key that occurs twice is an error. -/
def field (entries : List (Bytes × Value)) (key : Bytes) : Option (Option Value) :=
  match entries.filter fun entry => entry.1 == key with
  | [] => some none
  | [entry] => some (some entry.2)
  | _ => none

theorem filter_key_eq_singleton {entries : List (Bytes × Value)}
    (nodup : (entries.map Prod.fst).Nodup) (member : (key, value) ∈ entries) :
    (entries.filter fun entry => entry.1 == key) = [(key, value)] := by
  induction entries with
  | nil => cases member
  | cons entry rest ih =>
      rw [List.map_cons, List.nodup_cons] at nodup
      rcases List.mem_cons.mp member with here | later
      · subst here
        rw [List.filter_cons_of_pos (by exact beq_self_eq_true key), List.filter_eq_nil_iff.mpr]
        intro other otherMember same
        exact nodup.1 (List.mem_map.mpr ⟨other, otherMember, beq_iff_eq.mp same⟩)
      · rw [List.filter_cons_of_neg, ih nodup.2 later]
        intro same
        apply nodup.1
        rw [beq_iff_eq.mp same]
        exact List.mem_map_of_mem later

theorem content_unique (nodup : (fields.map Prod.fst).Nodup) {first second : Option Value}
    (firstMember : (key, first) ∈ fields) (secondMember : (key, second) ∈ fields) : first = second := by
  have same := List.inj_on_of_nodup_map nodup firstMember secondMember rfl
  exact congrArg Prod.snd same

/-- Reading a record returns what was written under each declared key. -/
theorem field_entriesOf (nodup : (fields.map Prod.fst).Nodup) {content : Option Value}
    (member : (key, content) ∈ fields) : field (entriesOf fields) key = some content := by
  rw [field]
  cases content with
  | some inner =>
      have written := (entriesOf_perm fields).mem_iff.mpr (mem_present.mpr member)
      rw [filter_key_eq_singleton (nodup_entriesOf_keys nodup) written]
  | none =>
      rw [List.filter_eq_nil_iff.mpr]
      rintro ⟨name, inner⟩ written same
      have sameKey : name = key := beq_iff_eq.mp same
      subst sameKey
      have declared := mem_present.mp ((entriesOf_perm fields).mem_iff.mp written)
      cases content_unique nodup member declared

/-- The value of a field that may be left out. -/
def optionalField {α : Type} (entries : List (Bytes × Value)) (key : Bytes) (read : Value -> Option α) :
    Option (Option α) :=
  match field entries key with
  | none => none
  | some none => some none
  | some (some value) => (read value).map some

/-- The value of a field that must be there. -/
def requiredField {α : Type} (entries : List (Bytes × Value)) (key : Bytes) (read : Value -> Option α) :
    Option α :=
  match field entries key with
  | some (some value) => read value
  | _ => none

theorem optionalField_entriesOf {α : Type} {write : α -> Value} {read : Value -> Option α}
    (nodup : (fields.map Prod.fst).Nodup) {content : Option α}
    (member : (key, content.map write) ∈ fields)
    (readsBack : forall item, content = some item -> read (write item) = some item) :
    optionalField (entriesOf fields) key read = some content := by
  rw [optionalField, field_entriesOf nodup member]
  cases content with
  | none => rfl
  | some item =>
      change (read (write item)).map some = some (some item)
      rw [readsBack item rfl]
      rfl

theorem requiredField_entriesOf {α : Type} {write : α -> Value} {read : Value -> Option α}
    (nodup : (fields.map Prod.fst).Nodup) {item : α} (member : (key, some (write item)) ∈ fields)
    (readsBack : read (write item) = some item) :
    requiredField (entriesOf fields) key read = some item := by
  rw [requiredField, field_entriesOf nodup member]
  exact readsBack

/-! ## Canonical contents -/

/-- A field is either left out or canonical. -/
def CanonicalContent (content : Option Value) : Prop :=
  forall value, content = some value -> value.Canonical

theorem canonicalContent_none : CanonicalContent none := fun _ impossible => nomatch impossible

theorem canonicalContent_some (canonical : value.Canonical) : CanonicalContent (some value) :=
  fun _ equal => Option.some.inj equal ▸ canonical

theorem canonicalContent_map {α : Type} {write : α -> Value} {content : Option α}
    (canonical : forall item, content = some item -> (write item).Canonical) :
    CanonicalContent (content.map write) := by
  intro value written
  rcases Option.map_eq_some_iff.mp written with ⟨item, contentEq, rfl⟩
  exact canonical item contentEq

theorem canonical_record_of_contents (nodup : (fields.map Prod.fst).Nodup)
    (contents : forall field, field ∈ fields -> CanonicalContent field.2) : (record fields).Canonical :=
  canonical_record nodup fun key value member => contents (key, some value) member value rfl

end Bencode
