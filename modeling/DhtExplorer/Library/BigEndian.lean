import Mathlib.Data.Nat.ModEq

/-!
# Big-endian bytes of natural numbers

Fixed-width machine words are written most significant byte first.  Writing and
reading are stated on natural numbers, so one round trip serves every word width.
-/

namespace BigEndian

abbrev Bytes := List UInt8

/-- The low `width` bytes of a number, most significant first. -/
def encode : Nat -> Nat -> Bytes
  | 0, _ => []
  | width + 1, number => UInt8.ofNat (number / 256 ^ width) :: encode width number

/-- The number a byte string denotes, most significant byte first. -/
def decode : Bytes -> Nat
  | [] => 0
  | byte :: rest => byte.toNat * 256 ^ rest.length + decode rest

@[simp] theorem length_encode (width number : Nat) : (encode width number).length = width := by
  induction width with
  | zero => rfl
  | succ width ih => rw [encode, List.length_cons, ih]

theorem decode_encode (width number : Nat) : decode (encode width number) = number % 256 ^ width := by
  induction width with
  | zero => rw [encode, decode, pow_zero, Nat.mod_one]
  | succ width ih =>
      have leading : number % 256 ^ (width + 1) =
          number % 256 ^ width + 256 ^ width * (number / 256 ^ width % 256) := Nat.mod_pow_succ
      rw [encode, decode, length_encode, ih, UInt8.toNat_ofNat', leading, Nat.add_comm, Nat.mul_comm]

theorem decode_encode_of_lt {width number : Nat} (bound : number < 256 ^ width) :
    decode (encode width number) = number := by
  rw [decode_encode, Nat.mod_eq_of_lt bound]

theorem decode_lt (bytes : Bytes) : decode bytes < 256 ^ bytes.length := by
  induction bytes with
  | nil => exact Nat.one_pos
  | cons byte rest ih =>
      have digit : byte.toNat + 1 ≤ 256 := byte.toNat_lt
      calc
        decode (byte :: rest) < byte.toNat * 256 ^ rest.length + 256 ^ rest.length := Nat.add_lt_add_left ih _
        _ = (byte.toNat + 1) * 256 ^ rest.length := (Nat.succ_mul _ _).symm
        _ ≤ 256 * 256 ^ rest.length := Nat.mul_le_mul_right _ digit
        _ = 256 ^ (byte :: rest).length := by rw [List.length_cons, pow_succ, Nat.mul_comm]

theorem decode_lt_two_pow {bytes : Bytes} {width : Nat} (length : bytes.length = width) :
    decode bytes < 2 ^ (8 * width) := by
  have bound := decode_lt bytes
  rwa [length, <- Nat.pow_mul 2 8] at bound

theorem decode_append (first second : Bytes) :
    decode (first ++ second) = decode first * 256 ^ second.length + decode second := by
  induction first with
  | nil => rw [List.nil_append, decode, Nat.zero_mul, Nat.zero_add]
  | cons byte rest ih =>
      rw [List.cons_append, decode, decode, ih, List.length_append, pow_add, Nat.add_mul, Nat.mul_assoc,
        Nat.add_assoc]

/-- Zeros in front do not count. -/
theorem decode_replicate_append (count : Nat) (bytes : Bytes) :
    decode (List.replicate count 0 ++ bytes) = decode bytes := by
  induction count with
  | zero => rw [List.replicate_zero, List.nil_append]
  | succ count ih =>
      have zero : (0 : UInt8).toNat = 0 := rfl
      rw [List.replicate_succ, List.cons_append, decode, zero, Nat.zero_mul, Nat.zero_add, ih]

/-! ## Numbers and bytes have one order -/

/-- A leading digit decides, where the rest is smaller than its weight. -/
theorem digits_lt_iff {base first second firstRest secondRest : Nat} (firstBound : firstRest < base)
    (secondBound : secondRest < base) :
    first * base + firstRest < second * base + secondRest <->
      first < second ∨ (first = second ∧ firstRest < secondRest) := by
  have below : forall {low high lowRest highRest : Nat}, low < high -> lowRest < base ->
      low * base + lowRest < high * base + highRest := by
    intro low high lowRest highRest less bound
    calc
      low * base + lowRest < low * base + base := Nat.add_lt_add_left bound _
      _ = (low + 1) * base := (Nat.succ_mul _ _).symm
      _ ≤ high * base := Nat.mul_le_mul_right _ less
      _ ≤ high * base + highRest := Nat.le_add_right _ _
  rcases Nat.lt_trichotomy first second with less | same | greater
  · exact ⟨fun _ => Or.inl less, fun _ => below less firstBound⟩
  · subst same
    constructor
    · intro less
      exact Or.inr ⟨rfl, Nat.lt_of_add_lt_add_left less⟩
    · rintro (impossible | ⟨_, less⟩)
      · exact absurd impossible (Nat.lt_irrefl _)
      · exact Nat.add_lt_add_left less _
  · constructor
    · intro less
      exact absurd less (Nat.lt_asymm (below greater secondBound))
    · rintro (impossible | ⟨same, _⟩)
      · exact absurd impossible (Nat.lt_asymm greater)
      · exact absurd same.symm (Nat.ne_of_lt greater)

theorem digits_inj {base first second firstRest secondRest : Nat} (firstBound : firstRest < base)
    (secondBound : secondRest < base) (same : first * base + firstRest = second * base + secondRest) :
    first = second ∧ firstRest = secondRest := by
  have notLess := (digits_lt_iff firstBound secondBound).not.mp (Nat.not_lt.mpr (Nat.le_of_eq same.symm))
  have notGreater := (digits_lt_iff secondBound firstBound).not.mp (Nat.not_lt.mpr (Nat.le_of_eq same))
  omega

/-- Byte strings of one length have the order of their numbers. -/
theorem decode_lt_decode_iff {first second : Bytes} (same : first.length = second.length) :
    decode first < decode second <-> first < second := by
  induction first generalizing second with
  | nil =>
      cases second with
      | nil =>
          constructor
          · intro impossible
            exact absurd impossible (Nat.lt_irrefl _)
          · intro impossible
            exact absurd impossible (List.not_lt_nil _)
      | cons byte rest => cases same
  | cons byte rest ih =>
      cases second with
      | nil => cases same
      | cons other others =>
          have lengths : rest.length = others.length := Nat.succ.inj same
          have bound := decode_lt rest
          rw [lengths] at bound
          rw [decode, decode, lengths, digits_lt_iff bound (decode_lt others), ih lengths, List.cons_lt_cons_iff,
            UInt8.lt_iff_toNat_lt, UInt8.toNat_inj]

theorem eq_of_decode_eq {first second : Bytes} (same : first.length = second.length)
    (numbers : decode first = decode second) : first = second := by
  induction first generalizing second with
  | nil => exact (List.length_eq_zero_iff.mp same.symm).symm
  | cons byte rest ih =>
      cases second with
      | nil => cases same
      | cons other others =>
          have lengths : rest.length = others.length := Nat.succ.inj same
          have bound := decode_lt rest
          rw [lengths] at bound
          rw [decode, decode, lengths] at numbers
          have parts := digits_inj bound (decode_lt others) numbers
          rw [UInt8.toNat_inj.mp parts.1, ih lengths parts.2]

/-! ## Bits -/

/-- Bits keep their place in a byte, and bytes theirs from the end. -/
theorem testBit_decode {bytes : Bytes} {position bit : Nat} {byte : UInt8} (found : bytes[position]? = some byte)
    (inside : bit < 8) : (decode bytes).testBit (8 * (bytes.length - 1 - position) + bit) = byte.toNat.testBit bit := by
  induction bytes generalizing position with
  | nil => cases found
  | cons first rest ih =>
      have weight : 256 ^ rest.length = 2 ^ (8 * rest.length) := by rw [Nat.pow_mul]
      have bound : decode rest < 2 ^ (8 * rest.length) := decode_lt_two_pow rfl
      rw [decode, weight, Nat.mul_comm, Nat.testBit_two_pow_mul_add _ bound, List.length_cons, Nat.add_sub_cancel]
      cases position with
      | zero =>
          cases found
          rw [Nat.sub_zero, if_neg (Nat.not_lt.mpr (Nat.le_add_right _ _)), Nat.add_sub_cancel_left]
      | succ position =>
          rw [List.getElem?_cons_succ] at found
          have within := (List.getElem?_eq_some_iff.mp found).1
          have low : 8 * (rest.length - (position + 1)) + bit < 8 * rest.length := by omega
          have same : rest.length - (position + 1) = rest.length - 1 - position := by omega
          rw [if_pos low, same, ih found]

end BigEndian
