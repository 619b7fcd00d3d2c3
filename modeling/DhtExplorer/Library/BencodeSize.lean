import Mathlib.Algebra.BigOperators.Group.List.Basic
import DhtExplorer.Library.BencodeText

/-!
# The length of bencode text

The text of a record is as long as its fields, in whatever order they are
written, so its length can be read off the declared fields.
-/

namespace Bencode

open BigEndian (Bytes)

/-- The length of a byte string of the given length. -/
def stringSize (length : Nat) : Nat := Nat.log 10 length + 2 + length

theorem length_decimal (number : Nat) : (decimal number).length = Nat.log 10 number + 1 := by
  rw [decimal, List.length_map]
  by_cases zero : number = 0
  · rw [if_pos zero, zero, Nat.log_zero_right, List.length_singleton]
  · rw [if_neg zero, List.length_reverse, Nat.length_digits 10 number (by decide) zero]

theorem length_encodeBytes (text : Bytes) : (encodeBytes text).length = stringSize text.length := by
  rw [encodeBytes, List.length_append, List.length_cons, length_decimal, stringSize]
  omega

theorem length_encode_bytes (text : Bytes) : (encode (.bytes text)).length = stringSize text.length := by
  rw [encode, length_encodeBytes]

theorem length_encode_natCast (number : Nat) : (encode (.int number)).length = Nat.log 10 number + 3 := by
  have digits : encodeInt (number : Int) = decimal number := rfl
  rw [encode, List.length_cons, List.length_append, digits, length_decimal, List.length_singleton]

/-- The key and the value of one entry. -/
def entrySize (entry : Bytes × Value) : Nat := stringSize entry.1.length + (encode entry.2).length

/-- A key of fewer than ten bytes has one digit in front. -/
theorem entrySize_of_short {key : Bytes} (short : key.length < 10) (value : Value) :
    entrySize (key, value) = key.length + 2 + (encode value).length := by
  change stringSize key.length + (encode value).length = _
  rw [stringSize, Nat.log_of_lt short]
  omega

theorem length_encodeEntries (entries : List (Bytes × Value)) :
    (encodeEntries entries).length = (entries.map entrySize).sum := by
  induction entries with
  | nil => rw [encodeEntries, List.map_nil, List.sum_nil, List.length_nil]
  | cons entry rest ih =>
      rcases entry with ⟨key, value⟩
      rw [encodeEntries, List.length_append, List.length_append, length_encodeBytes, ih, List.map_cons,
        List.sum_cons, entrySize, Nat.add_assoc]

theorem length_encode_record (fields : List (Bytes × Option Value)) :
    (encode (record fields)).length = ((present fields).map entrySize).sum + 2 := by
  rw [record, encode, List.length_cons, List.length_append, length_encodeEntries,
    ((entriesOf_perm fields).map entrySize).sum_eq, List.length_singleton]

end Bencode
