import DhtExplorer.Library.Words
import DhtExplorer.U160

namespace DhtExplorer

open Words (checkedShl checkedShr checkedShl_of_lt checkedShr_of_lt split_shl split_shr testBit_even)

/-!
# Shifting ids

A shift works on the two words of an id and carries bits from one to the other.
An amount that a word cannot be shifted by is split: the word is shifted by the
last amount it allows, and what remains clears it.  A shift of a word by its
width or more is an overflow and gives nothing here.

Shifting right is floor division, except that the largest amount leaves a remainder
of a whole word.  Shifting left by a word or more first drops the last bit.
-/

namespace U160

def shr (self : U160) (rhs : UInt8) : Option U160 := do
  let msshift := Min.min rhs.toNat 127
  let msremain := rhs.toNat - msshift
  let msbytes <- (if 0 < msremain then some 0 else checkedShr self.msbytes msshift)
  let overflow <- checkedShl self.msbytes (127 - msshift)
  let overflow <- checkedShr overflow msremain
  let overflow <- checkedShr overflow (127 - 32)
  let lsshift := Min.min rhs.toNat 31
  let lsremain := rhs.toNat - lsshift
  let lsbytes <- (if 0 < lsremain then some 0 else checkedShr self.lsbytes lsshift)
  some (new msbytes (lsbytes ||| overflow.setWidth 32))

def shl (self : U160) (rhs : UInt8) : Option U160 := do
  let lsshift := Min.min rhs.toNat 31
  let lsremain := rhs.toNat - lsshift
  let lsbytes <- (if 0 < lsremain then some 0 else checkedShl self.lsbytes lsshift)
  let overflow <-
    (if lsshift = 0 ∨ 127 < lsremain then some 0
      else (checkedShr self.lsbytes (32 - lsshift)).bind fun bits => checkedShl (bits.setWidth 128) lsremain)
  let msshift := Min.min rhs.toNat 127
  let msremain := rhs.toNat - msshift
  let msbytes <- (if 0 < msremain then some 0 else checkedShl self.msbytes msshift)
  some (new (msbytes ||| overflow) lsbytes)

/-! ## To the right -/

/-- What a shift to the right moves from the first word into the second. -/
def shrOverflow (msbytes : BitVec 128) (amount : Nat) : BitVec 32 :=
  ((msbytes <<< (127 - Min.min amount 127)) >>> (amount - Min.min amount 127) >>> 95).setWidth 32

theorem shr_eq_some {rhs : UInt8} (self : U160) (fits : rhs.toNat ≠ 255) :
    self.shr rhs = some (new (self.msbytes >>> rhs.toNat)
      (self.lsbytes >>> rhs.toNat ||| shrOverflow self.msbytes rhs.toNat)) := by
  have byte := rhs.toNat_lt
  have first : 127 - Min.min rhs.toNat 127 < 128 := by omega
  have second : rhs.toNat - Min.min rhs.toNat 127 < 128 := by omega
  rw [shr]
  dsimp only
  rw [split_shr self.msbytes, split_shr self.lsbytes, checkedShl_of_lt _ first]
  dsimp only [bind, Option.bind_some]
  rw [checkedShr_of_lt _ second]
  rfl

theorem shr_eq_none {rhs : UInt8} (self : U160) (largest : rhs.toNat = 255) : self.shr rhs = none := by
  rw [shr, largest]
  dsimp only
  rw [split_shr self.msbytes]
  rfl

theorem getLsbD_shrOverflow {index : Nat} (msbytes : BitVec 128) (amount : Nat) (inside : index < 32) :
    (shrOverflow msbytes amount).getLsbD index =
      (decide (32 ≤ index + amount) && msbytes.getLsbD (index + amount - 32)) := by
  simp only [shrOverflow, BitVec.getLsbD_setWidth, BitVec.getLsbD_ushiftRight, BitVec.getLsbD_shiftLeft,
    decide_eq_true inside, Bool.true_and]
  rcases Nat.le_total amount 127 with small | large
  · have inWord : 95 + index < 128 := by omega
    rw [Nat.min_eq_left small, Nat.sub_self, Nat.zero_add, decide_eq_true inWord, Bool.true_and]
    by_cases moved : 32 ≤ index + amount
    · have reached : Not (95 + index < 127 - amount) := by omega
      have same : 95 + index - (127 - amount) = index + amount - 32 := by omega
      rw [decide_eq_false reached, decide_eq_true moved, same]
      rfl
    · have short : 95 + index < 127 - amount := by omega
      rw [decide_eq_true short, decide_eq_false moved]
      rfl
  · have moved : 32 ≤ index + amount := by omega
    have same : amount - 127 + (95 + index) = index + amount - 32 := by omega
    rw [Nat.min_eq_right large, Nat.sub_self, same, Nat.sub_zero, decide_eq_true moved,
      decide_eq_false (Nat.not_lt_zero _)]
    by_cases inWord : index + amount - 32 < 128
    · rw [decide_eq_true inWord]
      rfl
    · rw [BitVec.getLsbD_of_ge _ _ (Nat.le_of_not_lt inWord), Bool.and_false, Bool.and_false]

/-- Every bit moves down by the amount, across the words. -/
theorem toNat_shr {rhs : UInt8} {self result : U160} (shifted : self.shr rhs = some result) :
    result.toNat = self.toNat / 2 ^ rhs.toNat := by
  have fits : rhs.toNat ≠ 255 := by
    intro largest
    rw [shr_eq_none self largest] at shifted
    cases shifted
  rw [shr_eq_some self fits] at shifted
  cases shifted
  apply Nat.eq_of_testBit_eq
  intro index
  rw [Nat.testBit_div_two_pow, testBit_toNat, testBit_toNat]
  by_cases low : index < 32
  · rw [if_pos low]
    change (self.lsbytes >>> rhs.toNat ||| shrOverflow self.msbytes rhs.toNat).getLsbD index = _
    rw [BitVec.getLsbD_or, BitVec.getLsbD_ushiftRight, getLsbD_shrOverflow _ _ low,
      Nat.add_comm rhs.toNat index]
    by_cases moved : 32 ≤ index + rhs.toNat
    · rw [if_neg (Nat.not_lt.mpr moved), BitVec.getLsbD_of_ge _ _ moved, decide_eq_true moved,
        Bool.false_or, Bool.true_and]
    · rw [if_pos (Nat.lt_of_not_le moved), decide_eq_false moved, Bool.false_and, Bool.or_false]
  · have above : Not (index + rhs.toNat < 32) := by omega
    have same : rhs.toNat + (index - 32) = index + rhs.toNat - 32 := by omega
    rw [if_neg low, if_neg above]
    change (self.msbytes >>> rhs.toNat).getLsbD (index - 32) = _
    rw [BitVec.getLsbD_ushiftRight, same]

/-- A shift to the right is floor division, but for the largest amount. -/
theorem shr_exact_iff (self : U160) (rhs : UInt8) :
    (Exists fun result => self.shr rhs = some result ∧ result.toNat = self.toNat / 2 ^ rhs.toNat) <->
      rhs ≠ 255 := by
  constructor
  · rintro ⟨result, shifted, _⟩ rfl
    rw [shr_eq_none self rfl] at shifted
    cases shifted
  · intro different
    have fits : rhs.toNat ≠ 255 := by
      intro largest
      exact different (UInt8.toNat_inj.mp largest)
    exact ⟨_, shr_eq_some self fits, toNat_shr (shr_eq_some self fits)⟩

/-- After the largest amount the first word is shifted by its whole width. -/
theorem shr_largest_overflows :
    Not (Exists fun result => U160.min.shr 255 = some result ∧ result.toNat = U160.min.toNat / 2 ^ 255) := by
  rintro ⟨result, shifted, _⟩
  rw [shr_eq_none U160.min rfl] at shifted
  cases shifted

/-! ## To the left -/

/-- What a shift to the left moves from the second word into the first. -/
def shlOverflow (lsbytes : BitVec 32) (amount : Nat) : BitVec 128 :=
  if Min.min amount 31 = 0 ∨ 127 < amount - Min.min amount 31 then 0
  else ((lsbytes >>> (32 - Min.min amount 31)).setWidth 128) <<< (amount - Min.min amount 31)

/-- No shift exceeds the width of its word. -/
theorem shl_eq_some (self : U160) (rhs : UInt8) :
    self.shl rhs = some (new (self.msbytes <<< rhs.toNat ||| shlOverflow self.lsbytes rhs.toNat)
      (self.lsbytes <<< rhs.toNat)) := by
  have overflow : (if Min.min rhs.toNat 31 = 0 ∨ 127 < rhs.toNat - Min.min rhs.toNat 31 then some 0
      else (checkedShr self.lsbytes (32 - Min.min rhs.toNat 31)).bind fun bits =>
        checkedShl (bits.setWidth 128) (rhs.toNat - Min.min rhs.toNat 31)) =
      some (shlOverflow self.lsbytes rhs.toNat) := by
    rw [shlOverflow]
    by_cases nothing : Min.min rhs.toNat 31 = 0 ∨ 127 < rhs.toNat - Min.min rhs.toNat 31
    · rw [if_pos nothing, if_pos nothing]
    · rcases not_or.mp nothing with ⟨moves, few⟩
      have first : 32 - Min.min rhs.toNat 31 < 32 := by omega
      have second : rhs.toNat - Min.min rhs.toNat 31 < 128 := by omega
      rw [if_neg nothing, if_neg nothing, checkedShr_of_lt _ first, Option.bind_some, checkedShl_of_lt _ second]
  rw [shl]
  dsimp only
  rw [split_shl self.msbytes, split_shl self.lsbytes, overflow]
  rfl

/-- The last bit does not arrive after a shift by a word or more. -/
theorem getLsbD_shlOverflow {index : Nat} (lsbytes : BitVec 32) (amount : Nat) (inside : index < 128) :
    (shlOverflow lsbytes amount).getLsbD index =
      (decide (amount < 32 ∨ amount < index + 32) && lsbytes.getLsbD (index + 32 - amount)) := by
  rw [shlOverflow]
  by_cases nothing : Min.min amount 31 = 0 ∨ 127 < amount - Min.min amount 31
  · have zero : (0 : BitVec 128).getLsbD index = false := BitVec.getLsbD_zero
    rw [if_pos nothing, zero]
    by_cases arrives : amount < 32 ∨ amount < index + 32
    · have outside : 32 ≤ index + 32 - amount := by omega
      rw [BitVec.getLsbD_of_ge _ _ outside, Bool.and_false]
    · rw [decide_eq_false arrives, Bool.false_and]
  · rw [if_neg nothing, BitVec.getLsbD_shiftLeft, BitVec.getLsbD_setWidth, BitVec.getLsbD_ushiftRight,
      decide_eq_true inside, Bool.true_and]
    by_cases arrives : amount < 32 ∨ amount < index + 32
    · have reached : Not (index < amount - Min.min amount 31) := by omega
      have fits : index - (amount - Min.min amount 31) < 128 := by omega
      have same : 32 - Min.min amount 31 + (index - (amount - Min.min amount 31)) = index + 32 - amount := by omega
      rw [decide_eq_false reached, decide_eq_true fits, decide_eq_true arrives, same]
      rfl
    · have short : index < amount - Min.min amount 31 := by omega
      rw [decide_eq_true short, decide_eq_false arrives]
      rfl

/-! ### The number of a shifted id -/

/-- A product modulo the size of an id is the number with its bits moved up. -/
theorem testBit_shifted (number amount index : Nat) : (number * 2 ^ amount % 2 ^ 160).testBit index =
    (decide (index < 160) && (decide (amount ≤ index) && number.testBit (index - amount))) := by
  rw [Nat.testBit_mod_two_pow, Nat.testBit_mul_two_pow]

/-- What a shift to the left multiplies: from a word on, the last bit is dropped. -/
def shlOperand (self : U160) (amount : Nat) : Nat := if amount < 32 then self.toNat else self.toNat / 2 * 2

theorem testBit_shlOperand (self : U160) (amount index : Nat) :
    (self.shlOperand amount).testBit index = (decide (amount < 32 ∨ 0 < index) && self.toNat.testBit index) := by
  rw [shlOperand]
  by_cases small : amount < 32
  · rw [if_pos small, decide_eq_true (Or.inl small), Bool.true_and]
  · have same : (amount < 32 ∨ 0 < index) = (0 < index) := propext (or_iff_right small)
    rw [if_neg small, testBit_even]
    simp only [same]

/-- The second word keeps the bits that are not moved out of it. -/
theorem getLsbD_shl_low {index : Nat} (self : U160) (amount : Nat) (low : index < 32) :
    (self.lsbytes <<< amount).getLsbD index = (self.shlOperand amount * 2 ^ amount % 2 ^ 160).testBit index := by
  have inside : index < 160 := by omega
  rw [testBit_shifted, testBit_shlOperand, testBit_toNat, BitVec.getLsbD_shiftLeft, decide_eq_true low,
    decide_eq_true inside, Bool.true_and, Bool.true_and]
  by_cases reached : amount ≤ index
  · have small : amount < 32 := by omega
    have source : index - amount < 32 := by omega
    rw [decide_eq_false (Nat.not_lt.mpr reached), decide_eq_true reached, decide_eq_true (Or.inl small),
      if_pos source]
    rfl
  · rw [decide_eq_true (Nat.lt_of_not_le reached), decide_eq_false reached]
    rfl

/-- The first word gets its own bits and those that are moved out of the second. -/
theorem getLsbD_shl_high {index : Nat} (self : U160) (amount : Nat) (high : 32 ≤ index) :
    (self.msbytes <<< amount ||| shlOverflow self.lsbytes amount).getLsbD (index - 32) =
      (self.shlOperand amount * 2 ^ amount % 2 ^ 160).testBit index := by
  rw [testBit_shifted, testBit_shlOperand, testBit_toNat]
  by_cases inside : index < 160
  · have inWord : index - 32 < 128 := by omega
    have back : index - 32 + 32 = index := by omega
    rw [BitVec.getLsbD_or, BitVec.getLsbD_shiftLeft, getLsbD_shlOverflow _ _ inWord, back,
      decide_eq_true inside, decide_eq_true inWord, Bool.true_and, Bool.true_and]
    by_cases within : amount ≤ index - 32
    · -- the bit comes from the first word
      have reached : amount ≤ index := by omega
      have moved : amount < 32 ∨ 0 < index - amount := by omega
      have above : 32 ≤ index - amount := by omega
      have same : index - 32 - amount = index - amount - 32 := by omega
      rw [decide_eq_false (Nat.not_lt.mpr within), BitVec.getLsbD_of_ge self.lsbytes _ above,
        decide_eq_true reached, decide_eq_true moved, if_neg (Nat.not_lt.mpr above), same, Bool.and_false,
        Bool.or_false]
      rfl
    · -- the bit comes from the second word, or is a zero that was moved in
      rw [decide_eq_true (Nat.lt_of_not_le within)]
      by_cases reached : amount ≤ index
      · have source : index - amount < 32 := by omega
        have same : (amount < 32 ∨ amount < index) = (amount < 32 ∨ 0 < index - amount) := by
          rw [Nat.sub_pos_iff_lt]
        rw [decide_eq_true reached, if_pos source]
        simp only [same]
        rfl
      · have apart : Not (amount < 32 ∨ amount < index) := by omega
        rw [decide_eq_false apart, decide_eq_false reached]
        rfl
  · have outside : 128 ≤ index - 32 := by omega
    rw [BitVec.getLsbD_of_ge _ _ outside, decide_eq_false inside, Bool.false_and]

/-- The last bit is dropped before a shift by a word or more; the number is then multiplied. -/
theorem toNat_shl {rhs : UInt8} {self result : U160} (shifted : self.shl rhs = some result) :
    result.toNat = self.shlOperand rhs.toNat * 2 ^ rhs.toNat % 2 ^ 160 := by
  rw [shl_eq_some] at shifted
  cases shifted
  apply Nat.eq_of_testBit_eq
  intro index
  rw [testBit_toNat]
  by_cases low : index < 32
  · rw [if_pos low]
    exact getLsbD_shl_low self rhs.toNat low
  · rw [if_neg low]
    exact getLsbD_shl_high self rhs.toNat (Nat.le_of_not_lt low)

theorem shlOperand_even {self : U160} (even : self.lsbytes.getLsbD 0 = false) (amount : Nat) :
    self.shlOperand amount = self.toNat := by
  apply Nat.eq_of_testBit_eq
  intro index
  rw [testBit_shlOperand]
  cases index with
  | zero =>
      have unset : self.toNat.testBit 0 = false := (testBit_toNat self 0).trans even
      rw [unset, Bool.and_false]
  | succ index => rw [decide_eq_true (Or.inr index.succ_pos), Bool.true_and]

/-- A shift to the left multiplies, unless it drops a last bit that is set. -/
theorem shl_exact_iff (self : U160) (rhs : UInt8) :
    (Exists fun result => self.shl rhs = some result ∧
      result.toNat = self.toNat * 2 ^ rhs.toNat % 2 ^ 160) <->
        rhs.toNat < 32 ∨ 160 ≤ rhs.toNat ∨ self.lsbytes.getLsbD 0 = false := by
  constructor
  · rintro ⟨result, shifted, multiplied⟩
    rw [toNat_shl shifted] at multiplied
    have bits := congrArg (fun number => Nat.testBit number rhs.toNat) multiplied
    simp only [testBit_shifted, testBit_shlOperand, Nat.sub_self] at bits
    by_cases small : rhs.toNat < 32
    · exact Or.inl small
    · by_cases large : 160 ≤ rhs.toNat
      · exact Or.inr (Or.inl large)
      · have moved : Not (rhs.toNat < 32 ∨ 0 < 0) := by omega
        rw [decide_eq_true (Nat.lt_of_not_le large), decide_eq_true (Nat.le_refl _), decide_eq_false moved,
          testBit_toNat, if_pos (by decide)] at bits
        exact Or.inr (Or.inr bits.symm)
  · intro condition
    refine ⟨_, shl_eq_some self rhs, ?_⟩
    rw [toNat_shl (shl_eq_some self rhs)]
    rcases condition with small | large | even
    · rw [shlOperand, if_pos small]
    · apply Nat.eq_of_testBit_eq
      intro index
      rw [testBit_shifted, testBit_shifted]
      by_cases inside : index < 160
      · have beyond : Not (rhs.toNat ≤ index) := by omega
        rw [decide_eq_false beyond, Bool.false_and, Bool.false_and]
      · rw [decide_eq_false inside, Bool.false_and, Bool.false_and]
    · rw [shlOperand_even even]

/-- The last bit of one is lost on its way to the first word. -/
theorem shl_drops_last_bit :
    Not (Exists fun result => (new 0 1).shl 32 = some result ∧
      result.toNat = (new 0 1).toNat * 2 ^ 32 % 2 ^ 160) := by
  rintro ⟨result, shifted, multiplied⟩
  have amount : (32 : UInt8).toNat = 32 := rfl
  have dropped : (new 0 1).shlOperand 32 = 0 := rfl
  have one : (new 0 1).toNat = 1 := rfl
  rw [toNat_shl shifted, amount, dropped, one, Nat.zero_mul, Nat.zero_mod, Nat.one_mul] at multiplied
  revert multiplied
  decide

end U160
end DhtExplorer
