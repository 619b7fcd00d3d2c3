import DhtExplorer.Kmsg.Wrappers

namespace DhtExplorer

open BigEndian (Bytes)

/-!
# The byte form of ids

The twenty bytes of an id are the two words one after the other.  As the bytes
denote the number of the id, they have its order and its bits, and the boundary
between the words does not show.
-/

namespace U160

/-- The bytes denote the number. -/
theorem decode_toBeBytes (id : U160) : BigEndian.decode id.toBeBytes = id.toNat := by
  rw [toBeBytes, BigEndian.decode_append, BigEndian.length_encode, BigEndian.decode_encode_of_lt id.msbytes.isLt,
    BigEndian.decode_encode_of_lt id.lsbytes.isLt]
  rfl

theorem toNat_fromBeBytes {bytes : Bytes} (length : bytes.length = 20) :
    (fromBeBytes bytes).toNat = BigEndian.decode bytes := by
  have highLength : (bytes.take 16).length = 16 := by rw [List.length_take, length]; rfl
  have lowLength : (bytes.drop 16).length = 4 := by rw [List.length_drop, length]
  have lowBytes : (bytes.drop 16).take 4 = bytes.drop 16 := List.take_of_length_le (Nat.le_of_eq lowLength)
  have high : BigEndian.decode (bytes.take 16) < 2 ^ 128 := BigEndian.decode_lt_two_pow highLength
  have low : BigEndian.decode (bytes.drop 16) < 2 ^ 32 := BigEndian.decode_lt_two_pow lowLength
  have whole := BigEndian.decode_append (bytes.take 16) (bytes.drop 16)
  rw [List.take_append_drop, lowLength] at whole
  rw [whole, fromBeBytes, lowBytes]
  change (BitVec.ofNat 128 _).toNat * 2 ^ 32 + (BitVec.ofNat 32 _).toNat = _
  rw [BitVec.toNat_ofNat, BitVec.toNat_ofNat, Nat.mod_eq_of_lt high, Nat.mod_eq_of_lt low]
  rfl

theorem toBeBytes_fromBeBytes {bytes : Bytes} (length : bytes.length = 20) : (fromBeBytes bytes).toBeBytes = bytes := by
  apply BigEndian.eq_of_decode_eq
  · rw [length_toBeBytes, length]
  · rw [decode_toBeBytes, toNat_fromBeBytes length]

theorem toBeBytes_lt_iff {first second : U160} : first.toBeBytes < second.toBeBytes <-> first.toNat < second.toNat := by
  have lengths : first.toBeBytes.length = second.toBeBytes.length := by rw [length_toBeBytes, length_toBeBytes]
  rw [<- BigEndian.decode_lt_decode_iff lengths, decode_toBeBytes, decode_toBeBytes]

/-- Eight bits of the index select a byte, counted from the most significant one. -/
theorem getBit_toBeBytes (id : U160) {position bit : Nat} (inBytes : position < 20) (inByte : bit < 8) :
    Exists fun byte => id.toBeBytes[position]? = some byte ∧
      id.getBit (8 * position + bit) = byte.toBitVec.getMsbD bit := by
  have inside : position < id.toBeBytes.length := by rwa [length_toBeBytes]
  have found := List.getElem?_eq_getElem inside
  refine ⟨_, found, ?_⟩
  have same : 159 - (8 * position + bit) = 8 * (id.toBeBytes.length - 1 - position) + (7 - bit) := by
    rw [length_toBeBytes]
    omega
  rw [getBit_eq_testBit id (by omega), same, <- decode_toBeBytes, BigEndian.testBit_decode found (by omega),
    BitVec.getMsbD_eq_getLsbD, decide_eq_true inByte, Bool.true_and]
  rfl

end U160

namespace Kmsg

/-- Short ids are numbers without their leading zeros. -/
theorem deserializeU160_short (stray : Bencode.Value -> Option Bytes) {text : Bytes} (short : text.length ≤ 20) :
    Exists fun id => deserializeU160 stray (.bytes text) = some id ∧ id.toNat = BigEndian.decode text := by
  have length : (List.replicate (20 - text.length) 0 ++ text).length = 20 := by
    rw [List.length_append, List.length_replicate, Nat.sub_add_cancel short]
  refine ⟨U160.fromBeBytes (List.replicate (20 - text.length) 0 ++ text), ?_, ?_⟩
  · rw [deserializeU160, asBytes, Option.bind_some, if_neg (Nat.not_lt.mpr short)]
  · rw [U160.toNat_fromBeBytes length, BigEndian.decode_replicate_append]

theorem deserializeU160_long (stray : Bencode.Value -> Option Bytes) {text : Bytes} (long : 20 < text.length) :
    deserializeU160 stray (.bytes text) = none := by
  rw [deserializeU160, asBytes, Option.bind_some, if_pos long]

end Kmsg

/-- The byte form has the same order and bits as the id, and every string that is not
too long is read as the number it denotes. -/
theorem byte_form (stray : Bencode.Value -> Option Bytes) (first second : U160) :
    U160.fromBeBytes first.toBeBytes = first ∧
    (forall bytes : Bytes, bytes.length = 20 -> (U160.fromBeBytes bytes).toBeBytes = bytes) ∧
    (first.cmp second = .lt <-> first.toBeBytes < second.toBeBytes) ∧
    (forall position bit, position < 20 -> bit < 8 ->
      Exists fun byte => first.toBeBytes[position]? = some byte ∧
        first.getBit (8 * position + bit) = byte.toBitVec.getMsbD bit) ∧
    (forall text : Bytes, text.length ≤ 20 ->
      Exists fun id => Kmsg.deserializeU160 stray (.bytes text) = some id ∧ id.toNat = BigEndian.decode text) ∧
    forall text : Bytes, 20 < text.length -> Kmsg.deserializeU160 stray (.bytes text) = none := by
  refine ⟨U160.fromBeBytes_toBeBytes first, ?_, ?_, ?_, ?_, ?_⟩
  · intro bytes length
    exact U160.toBeBytes_fromBeBytes length
  · rw [U160.cmp_eq_lt, U160.toBeBytes_lt_iff]
  · intro position bit inBytes inByte
    exact U160.getBit_toBeBytes first inBytes inByte
  · intro text short
    exact Kmsg.deserializeU160_short stray short
  · intro text long
    exact Kmsg.deserializeU160_long stray long

/-- Two bytes are read as an id of twenty, and twenty-one are refused. -/
theorem byte_form_short :
    (U160.fromBeBytes (List.replicate 20 7)).toBeBytes = List.replicate 20 7 ∧
    (Exists fun byte => (U160.new 0 1).toBeBytes[19]? = some byte ∧
      (U160.new 0 1).getBit (8 * 19 + 7) = byte.toBitVec.getMsbD 7) ∧
    (Exists fun id => Kmsg.deserializeU160 (fun _ => none) (.bytes [1, 0]) = some id ∧ id.toNat = BigEndian.decode [1, 0]) ∧
    Kmsg.deserializeU160 (fun _ => none) (.bytes (List.replicate 21 7)) = none := by
  rcases byte_form (fun _ => none) (U160.new 0 1) (U160.new 1 0) with ⟨_, back, _, bits, short, long⟩
  refine ⟨back _ (by decide), bits 19 7 (by decide) (by decide), short [1, 0] (by decide), long _ (by decide)⟩

end DhtExplorer
