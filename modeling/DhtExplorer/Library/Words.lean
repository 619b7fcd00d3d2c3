import Mathlib.Data.BitVec
import Mathlib.Data.Nat.Bitwise

/-!
# Machine words as numbers

Shifts and masks of words of a fixed width, read as arithmetic on numbers.  A
shift by the width of its word or more is an overflow and gives nothing here.
-/

namespace Words

/-! ## Shifts -/

def checkedShl {width : Nat} (word : BitVec width) (amount : Nat) : Option (BitVec width) :=
  if amount < width then some (word <<< amount) else none

def checkedShr {width : Nat} (word : BitVec width) (amount : Nat) : Option (BitVec width) :=
  if amount < width then some (word >>> amount) else none

theorem checkedShl_of_lt {width amount : Nat} (word : BitVec width) (inside : amount < width) :
    checkedShl word amount = some (word <<< amount) := if_pos inside

theorem checkedShr_of_lt {width amount : Nat} (word : BitVec width) (inside : amount < width) :
    checkedShr word amount = some (word >>> amount) := if_pos inside

/-- An amount may be split into a legal shift and a remainder that clears the word. -/
theorem split_shift {width last : Nat} {shift : Nat -> BitVec width}
    (cleared : forall amount, last < amount -> shift amount = 0) (amount : Nat) :
    (if 0 < amount - min amount last then some 0 else some (shift (min amount last))) = some (shift amount) := by
  rcases Nat.lt_or_ge last amount with large | small
  · have remains : 0 < amount - min amount last := by
      rw [Nat.min_eq_right (Nat.le_of_lt large)]
      exact Nat.sub_pos_of_lt large
    rw [if_pos remains, cleared amount large]
  · rw [Nat.min_eq_left small, Nat.sub_self, if_neg (Nat.lt_irrefl 0)]

theorem split_shl {last : Nat} (word : BitVec (last + 1)) (amount : Nat) :
    (if 0 < amount - min amount last then some 0 else checkedShl word (min amount last)) =
      some (word <<< amount) := by
  rw [checkedShl_of_lt word (Nat.lt_succ_of_le (Nat.min_le_right amount last))]
  exact split_shift (fun _ large => BitVec.shiftLeft_eq_zero large) amount

theorem split_shr {last : Nat} (word : BitVec (last + 1)) (amount : Nat) :
    (if 0 < amount - min amount last then some 0 else checkedShr word (min amount last)) =
      some (word >>> amount) := by
  rw [checkedShr_of_lt word (Nat.lt_succ_of_le (Nat.min_le_right amount last))]
  exact split_shift (fun _ large => BitVec.ushiftRight_eq_zero large) amount

/-! ## Masks -/

/-- A mask of the high bits rounds a number down. -/
theorem toNat_and_high {width : Nat} (word : BitVec width) (low : Nat) :
    (word &&& BitVec.allOnes width <<< low).toNat = word.toNat / 2 ^ low * 2 ^ low := by
  apply Nat.eq_of_testBit_eq
  intro index
  rw [Nat.testBit_mul_two_pow, Nat.testBit_div_two_pow, BitVec.testBit_toNat, BitVec.testBit_toNat,
    BitVec.getLsbD_and, BitVec.getLsbD_shiftLeft, BitVec.getLsbD_allOnes]
  by_cases high : low ≤ index
  · rw [Nat.sub_add_cancel high, decide_eq_true high, decide_eq_false (Nat.not_lt.mpr high)]
    by_cases inside : index < width
    · have shifted : index - low < width := by omega
      rw [decide_eq_true inside, decide_eq_true shifted]
      exact Bool.and_comm _ _
    · rw [BitVec.getLsbD_of_ge _ _ (Nat.le_of_not_lt inside), Bool.false_and, Bool.and_false]
  · rw [decide_eq_true (Nat.lt_of_not_le high), decide_eq_false high, Bool.not_true, Bool.and_false,
      Bool.false_and, Bool.and_false, Bool.false_and]

/-- A mask of the low bits takes a remainder. -/
theorem toNat_and_low {width : Nat} (word mask : BitVec width) (low : Nat) (ones : mask.toNat = 2 ^ low - 1) :
    (word &&& mask).toNat = word.toNat % 2 ^ low := by
  rw [BitVec.toNat_and, ones, Nat.and_two_pow_sub_one_eq_mod]

/-- High and low bits are put together by or. -/
theorem or_eq_add {low high rest : Nat} (small : rest < 2 ^ low) : high * 2 ^ low ||| rest = high * 2 ^ low + rest := by
  rw [Nat.mul_comm, Nat.two_pow_add_eq_or_of_lt small]

/-! ## Bits -/

/-- Rounding to an even number clears the last bit. -/
theorem testBit_even (number index : Nat) :
    (number / 2 * 2).testBit index = (decide (0 < index) && number.testBit index) := by
  cases index with
  | zero => rw [Nat.testBit_zero, Nat.mul_mod_left]; rfl
  | succ index =>
      rw [Nat.testBit_succ, Nat.mul_div_cancel _ (by decide), Nat.testBit_succ, decide_eq_true index.succ_pos,
        Bool.true_and]

/-- Exclusive or is addition without the carries. -/
theorem xor_le_add (first second : Nat) : first ^^^ second ≤ first + second := by
  induction first using Nat.strongRecOn generalizing second with
  | ind first ih =>
      have last : (first ^^^ second) % 2 = (first + second) % 2 := Nat.xor_mod_two_eq
      have rest : (first ^^^ second) / 2 = first / 2 ^^^ second / 2 := Nat.xor_div_two
      rcases Nat.eq_zero_or_pos first with rfl | positive
      · rw [Nat.zero_xor, Nat.zero_add]
      · have smaller := ih (first / 2) (Nat.div_lt_self positive (by decide)) (second / 2)
        omega

end Words
