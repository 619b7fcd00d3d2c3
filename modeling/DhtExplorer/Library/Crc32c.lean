import Mathlib.Data.BitVec
import Mathlib.Logic.Function.Iterate
import DhtExplorer.Library.BigEndian

/-!
# The Castagnoli checksum

The remainder of the bytes, low bit first, by the Castagnoli polynomial.  It is
computed one bit at a time; programs that use a table compute the same word.

One shift of the remainder is linear and loses nothing, as the polynomial sets the
bit that a shift leaves free.  So bytes that are the same for two messages never make
their checksums meet, and four bytes go into the remainder as one word.
-/

namespace Crc32c

open BigEndian (Bytes)

def POLYNOMIAL : BitVec 32 := 0x82f63b78#32

def shift (remainder : BitVec 32) : BitVec 32 :=
  if remainder.getLsbD 0 then (remainder >>> 1) ^^^ POLYNOMIAL else remainder >>> 1

def update (remainder : BitVec 32) (byte : UInt8) : BitVec 32 :=
  Nat.iterate shift 8 (remainder ^^^ byte.toBitVec.setWidth 32)

def crc32c (bytes : Bytes) : BitVec 32 := ~~~(bytes.foldl update (BitVec.allOnes 32))

/-- The check value of the checksum is that of the digits from one to nine. -/
example : crc32c [0x31, 0x32, 0x33, 0x34, 0x35, 0x36, 0x37, 0x38, 0x39] = 0xe3069283#32 := by
  decide +kernel

/-! ## One shift -/

theorem shift_xor (first second : BitVec 32) : shift (first ^^^ second) = shift first ^^^ shift second := by
  have regroup : forall left right mask : BitVec 32, left ^^^ right ^^^ mask = left ^^^ mask ^^^ right ∧
      left ^^^ right = left ^^^ mask ^^^ (right ^^^ mask) := by
    intro left right mask
    constructor
    · rw [BitVec.xor_assoc, BitVec.xor_comm right, BitVec.xor_assoc]
    · rw [BitVec.xor_assoc, BitVec.xor_comm right, <- BitVec.xor_assoc mask, BitVec.xor_self, BitVec.zero_xor]
  rw [shift, shift, shift, BitVec.getLsbD_xor, BitVec.ushiftRight_xor_distrib]
  cases first.getLsbD 0 <;> cases second.getLsbD 0
  · rfl
  · exact BitVec.xor_assoc _ _ _
  · exact (regroup _ _ _).1
  · exact (regroup _ _ _).2

/-- Only nothing is shifted to nothing. -/
theorem eq_zero_of_shift {remainder : BitVec 32} (zero : shift remainder = 0) : remainder = 0 := by
  rw [shift] at zero
  cases last : remainder.getLsbD 0 with
  | true =>
      rw [if_pos last] at zero
      -- the highest bit of the polynomial is not cancelled
      have top := congrArg (fun word => BitVec.getLsbD word 31) zero
      simp only [BitVec.getLsbD_xor, BitVec.getLsbD_ushiftRight] at top
      rw [BitVec.getLsbD_of_ge remainder _ (by decide)] at top
      exact absurd top (by decide)
  | false =>
      rw [if_neg (by rw [last]; exact Bool.false_ne_true)] at zero
      apply BitVec.eq_of_getLsbD_eq
      intro index _
      cases index with
      | zero => rw [last]; rfl
      | succ index =>
          have bit := congrArg (fun word => BitVec.getLsbD word index) zero
          simp only [BitVec.getLsbD_ushiftRight] at bit
          rw [Nat.add_comm, bit]
          exact BitVec.getLsbD_zero.trans BitVec.getLsbD_zero.symm

theorem shift_injective : Function.Injective shift := by
  intro first second same
  have difference : shift (first ^^^ second) = 0 := by
    rw [shift_xor, same, BitVec.xor_self]
    rfl
  exact BitVec.xor_eq_zero_iff.mp (eq_zero_of_shift difference)

theorem iterate_shift_xor (count : Nat) (first second : BitVec 32) :
    Nat.iterate shift count (first ^^^ second) = Nat.iterate shift count first ^^^ Nat.iterate shift count second := by
  induction count generalizing first second with
  | zero => rfl
  | succ count ih =>
      rw [Function.iterate_succ_apply, Function.iterate_succ_apply, Function.iterate_succ_apply, shift_xor, ih]

theorem shift_double {number : Nat} (fits : number * 2 < 2 ^ 32) :
    shift (BitVec.ofNat 32 (number * 2)) = BitVec.ofNat 32 number := by
  have even : (BitVec.ofNat 32 (number * 2)).getLsbD 0 = false := by
    rw [BitVec.getLsbD_ofNat, Nat.testBit_zero, Nat.mul_mod_left]
    rfl
  rw [shift, if_neg (by rw [even]; exact Bool.false_ne_true)]
  apply BitVec.eq_of_toNat_eq
  rw [BitVec.toNat_ushiftRight, BitVec.toNat_ofNat, BitVec.toNat_ofNat, Nat.shiftRight_eq_div_pow]
  omega

/-- Zeros at the end are shifted out. -/
theorem iterate_shift_mul {number count : Nat} (fits : number * 2 ^ count < 2 ^ 32) :
    Nat.iterate shift count (BitVec.ofNat 32 (number * 2 ^ count)) = BitVec.ofNat 32 number := by
  induction count with
  | zero => rw [Nat.pow_zero, Nat.mul_one, Function.iterate_zero_apply]
  | succ count ih =>
      rw [Nat.pow_succ, <- Nat.mul_assoc] at fits ⊢
      rw [Function.iterate_succ_apply, shift_double fits, ih (by omega)]

/-! ## Bytes -/

theorem update_injective (byte : UInt8) : Function.Injective fun remainder => update remainder byte := by
  intro first second same
  exact (BitVec.xor_left_inj _).mp (shift_injective.iterate 8 same)

theorem foldl_update_injective (bytes : Bytes) : Function.Injective fun remainder => bytes.foldl update remainder := by
  induction bytes with
  | nil => exact Function.injective_id
  | cons byte rest ih => exact ih.comp (update_injective byte)

theorem ofNat_concat (number : Nat) (byte : UInt8) :
    BitVec.ofNat 32 (number * 2 ^ 8 + byte.toNat) = byte.toBitVec.setWidth 32 ^^^ BitVec.ofNat 32 (number * 2 ^ 8) := by
  have bound : byte.toNat < 2 ^ 8 := byte.toNat_lt
  apply BitVec.eq_of_getLsbD_eq
  intro index inside
  rw [BitVec.getLsbD_xor, BitVec.getLsbD_ofNat, BitVec.getLsbD_ofNat, BitVec.getLsbD_setWidth, Nat.mul_comm,
    Nat.testBit_two_pow_mul_add _ bound, Nat.testBit_two_pow_mul, decide_eq_true inside, Bool.true_and,
    Bool.true_and, Bool.true_and]
  by_cases low : index < 8
  · rw [if_pos low, decide_eq_false (Nat.not_le.mpr low), Bool.false_and, Bool.xor_false]
    rfl
  · have high : byte.toBitVec.getLsbD index = false := BitVec.getLsbD_of_ge _ _ (Nat.le_of_not_lt low)
    rw [if_neg low, high, decide_eq_true (Nat.le_of_not_lt low), Bool.true_and, Bool.false_xor]

/-- As many bytes as the remainder has go into it as one word, the first byte lowest. -/
theorem foldl_update_eq_iterate {bytes : Bytes} (short : bytes.length ≤ 4) (remainder : BitVec 32) :
    bytes.foldl update remainder =
      Nat.iterate shift (8 * bytes.length) (remainder ^^^ BitVec.ofNat 32 (BigEndian.decode bytes.reverse)) := by
  induction bytes generalizing remainder with
  | nil => exact BitVec.xor_zero.symm
  | cons byte rest ih =>
      have fewer : rest.length ≤ 3 := Nat.le_of_succ_le_succ short
      have bound : BigEndian.decode rest.reverse < 2 ^ (8 * rest.length) :=
        BigEndian.decode_lt_two_pow List.length_reverse
      have fits : BigEndian.decode rest.reverse * 2 ^ 8 < 2 ^ 32 := by
        have small : 2 ^ (8 * rest.length) ≤ 2 ^ 24 := Nat.pow_le_pow_right (by decide) (by omega)
        omega
      have number : BigEndian.decode (byte :: rest).reverse = BigEndian.decode rest.reverse * 2 ^ 8 + byte.toNat := by
        rw [List.reverse_cons, BigEndian.decode_append, BigEndian.decode, BigEndian.decode, List.length_nil,
          pow_zero, Nat.mul_one, Nat.add_zero]
        rfl
      calc
        (byte :: rest).foldl update remainder
          = Nat.iterate shift (8 * rest.length)
              (update remainder byte ^^^ BitVec.ofNat 32 (BigEndian.decode rest.reverse)) :=
            ih (Nat.le_succ_of_le fewer) (update remainder byte)
        _ = Nat.iterate shift (8 * rest.length) (Nat.iterate shift 8
              (remainder ^^^ byte.toBitVec.setWidth 32 ^^^ BitVec.ofNat 32 (BigEndian.decode rest.reverse * 2 ^ 8))) := by
            rw [iterate_shift_xor 8, iterate_shift_mul fits, update]
        _ = Nat.iterate shift (8 * (byte :: rest).length)
              (remainder ^^^ BitVec.ofNat 32 (BigEndian.decode (byte :: rest).reverse)) := by
            rw [<- Function.iterate_add_apply, BitVec.xor_assoc, number, ofNat_concat, List.length_cons, Nat.mul_succ]

/-- Up to four bytes are determined by the checksum and the bytes behind them. -/
theorem crc32c_append_injective {first second : Bytes} (short : first.length ≤ 4)
    (lengths : first.length = second.length) (rest : Bytes)
    (same : crc32c (first ++ rest) = crc32c (second ++ rest)) : first = second := by
  rw [crc32c, crc32c, List.foldl_append, List.foldl_append] at same
  have remainders := foldl_update_injective rest (BitVec.not_inj.mp same)
  have bound : forall bytes : Bytes, bytes.length = first.length -> BigEndian.decode bytes.reverse < 2 ^ 32 := by
    intro bytes length
    have small : 2 ^ (8 * first.length) ≤ 2 ^ 32 := Nat.pow_le_pow_right (by decide) (by omega)
    exact Nat.lt_of_lt_of_le (BigEndian.decode_lt_two_pow (List.length_reverse.trans length)) small
  rw [foldl_update_eq_iterate short, foldl_update_eq_iterate (lengths ▸ short), lengths] at remainders
  have words := (BitVec.xor_right_inj _).mp (shift_injective.iterate _ remainders)
  have numbers := congrArg BitVec.toNat words
  rw [BitVec.toNat_ofNat, BitVec.toNat_ofNat, Nat.mod_eq_of_lt (bound first rfl),
    Nat.mod_eq_of_lt (bound second lengths.symm)] at numbers
  apply List.reverse_injective
  apply BigEndian.eq_of_decode_eq _ numbers
  rw [List.length_reverse, List.length_reverse, lengths]

end Crc32c
