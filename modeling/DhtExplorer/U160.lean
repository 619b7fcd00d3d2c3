import Mathlib.Data.BitVec
import Mathlib.Data.Nat.Bitwise
import Mathlib.Order.Defs.LinearOrder
import DhtExplorer.Library.BigEndian

namespace DhtExplorer

open BigEndian (Bytes)

/-!
# Node ids and info hashes

An id has 160 bits, kept as a 128-bit word and a 32-bit word.  Bits are
numbered from the most significant one, across the word boundary.  The routing
table decides everything by single bits, so the facts needed later are that
`getBit` sees every bit of an id and turns `distance` into exclusive or.
-/

structure U160 where
  msbytes : BitVec 128
  lsbytes : BitVec 32
deriving DecidableEq, Repr

namespace U160

def new (msbytes : BitVec 128) (lsbytes : BitVec 32) : U160 := ⟨msbytes, lsbytes⟩

def min : U160 := new 0 0

def xor (first second : U160) : U160 :=
  new (first.msbytes ^^^ second.msbytes) (first.lsbytes ^^^ second.lsbytes)

def and (first second : U160) : U160 :=
  new (first.msbytes &&& second.msbytes) (first.lsbytes &&& second.lsbytes)

def or (first second : U160) : U160 :=
  new (first.msbytes ||| second.msbytes) (first.lsbytes ||| second.lsbytes)

def distance (first second : U160) : U160 := first.xor second

/-- Test one bit by masking.  Indexes past the last bit read as unset. -/
def getBit (id : U160) (beIndex : Nat) : Bool :=
  if 160 ≤ beIndex then false
  else if 128 ≤ beIndex then (1#32 <<< (31 - (beIndex - 128))) &&& id.lsbytes != 0
  else (1#128 <<< (127 - beIndex)) &&& id.msbytes != 0

def toBeBytes (id : U160) : Bytes :=
  BigEndian.encode 16 id.msbytes.toNat ++ BigEndian.encode 4 id.lsbytes.toNat

/-- The source takes a `[u8; 20]`; only the first twenty bytes are read here. -/
def fromBeBytes (bytes : Bytes) : U160 :=
  new (BitVec.ofNat 128 (BigEndian.decode (bytes.take 16)))
    (BitVec.ofNat 32 (BigEndian.decode ((bytes.drop 16).take 4)))

/-! ## Single bits -/

/-- Masking with one shifted bit tests exactly that bit. -/
private theorem masked_bit {width : Nat} (word : BitVec width) {index : Nat} (bound : index < width) :
    ((BitVec.ofNat width 1 <<< index) &&& word != BitVec.ofNat width 0) = word.getLsbD index := by
  rw [← BitVec.twoPow_eq, BitVec.twoPow_and]
  cases bit : word.getLsbD index with
  | false => simp
  | true =>
      rw [if_pos rfl, bne_iff_ne]
      intro zero
      have set := congrArg (fun word => BitVec.getLsbD word index) zero
      simp only [BitVec.getLsbD_twoPow, BitVec.getLsbD_zero, bound, decide_true, Bool.and_self,
        Bool.true_eq_false] at set

theorem getBit_of_lt {index : Nat} (id : U160) (bound : index < 128) :
    id.getBit index = id.msbytes.getMsbD index := by
  rw [getBit, if_neg (by omega), if_neg (by omega)]
  change ((1#128 <<< (127 - index)) &&& id.msbytes != 0#128) = _
  rw [masked_bit id.msbytes (by omega), BitVec.getMsbD_eq_getLsbD, decide_eq_true bound, Bool.true_and]

theorem getBit_low {index : Nat} (id : U160) (bound : index < 32) :
    id.getBit (128 + index) = id.lsbytes.getMsbD index := by
  rw [getBit, if_neg (by omega), if_pos (by omega), Nat.add_sub_cancel_left]
  change ((1#32 <<< (31 - index)) &&& id.lsbytes != 0#32) = _
  rw [masked_bit id.lsbytes (by omega), BitVec.getMsbD_eq_getLsbD, decide_eq_true bound, Bool.true_and]

/-- Two ids with the same 160 bits are equal. -/
theorem eq_of_getBit_eq {first second : U160}
    (equal : forall index, index < 160 -> first.getBit index = second.getBit index) :
    first = second := by
  have high : first.msbytes = second.msbytes := by
    apply BitVec.eq_of_getMsbD_eq
    intro index bound
    have bit := equal index (by omega)
    rwa [getBit_of_lt first bound, getBit_of_lt second bound] at bit
  have low : first.lsbytes = second.lsbytes := by
    apply BitVec.eq_of_getMsbD_eq
    intro index bound
    have bit := equal (128 + index) (by omega)
    rwa [getBit_low first bound, getBit_low second bound] at bit
  cases first
  cases second
  exact U160.mk.injEq .. ▸ ⟨high, low⟩

theorem getBit_distance (first second : U160) (index : Nat) :
    (first.distance second).getBit index = (first.getBit index ^^ second.getBit index) := by
  by_cases high : index < 128
  · rw [getBit_of_lt _ high, getBit_of_lt _ high, getBit_of_lt _ high]
    exact BitVec.getMsbD_xor
  · by_cases low : index < 160
    · have position : index = 128 + (index - 128) := by omega
      rw [position, getBit_low _ (by omega), getBit_low _ (by omega), getBit_low _ (by omega)]
      exact BitVec.getMsbD_xor
    · simp only [getBit, if_pos (Nat.le_of_not_lt low), Bool.xor_false]

/-- A set bit of the distance is a bit in which the two ids differ. -/
theorem getBit_distance_eq_true {first second : U160} {index : Nat} :
    (first.distance second).getBit index = true <-> first.getBit index ≠ second.getBit index := by
  rw [getBit_distance]
  cases first.getBit index <;> cases second.getBit index <;> decide

/-! ## The byte form -/

@[simp] theorem length_toBeBytes (id : U160) : id.toBeBytes.length = 20 := by
  rw [toBeBytes, List.length_append, BigEndian.length_encode, BigEndian.length_encode]

theorem fromBeBytes_toBeBytes (id : U160) : fromBeBytes id.toBeBytes = id := by
  have high : id.toBeBytes.take 16 = BigEndian.encode 16 id.msbytes.toNat :=
    List.take_left' (BigEndian.length_encode _ _)
  have low : (id.toBeBytes.drop 16).take 4 = BigEndian.encode 4 id.lsbytes.toNat := by
    rw [toBeBytes, List.drop_left' (BigEndian.length_encode _ _)]
    exact List.take_of_length_le (Nat.le_of_eq (BigEndian.length_encode _ _))
  rw [fromBeBytes, high, low, BigEndian.decode_encode_of_lt id.msbytes.isLt,
    BigEndian.decode_encode_of_lt id.lsbytes.isLt, BitVec.ofNat_toNat, BitVec.ofNat_toNat]
  simp only [new, BitVec.setWidth_eq]

theorem toBeBytes_injective : Function.Injective toBeBytes :=
  Function.LeftInverse.injective fromBeBytes_toBeBytes

/-! ## The order of ids -/

/-- The number that the bits spell. -/
def toNat (id : U160) : Nat := id.msbytes.toNat * 2 ^ 32 + id.lsbytes.toNat

theorem toNat_lt (id : U160) : id.toNat < 2 ^ 160 := by
  have high := id.msbytes.isLt
  have low := id.lsbytes.isLt
  rw [toNat]
  omega

theorem toNat_injective : Function.Injective toNat := by
  rintro ⟨firstHigh, firstLow⟩ ⟨secondHigh, secondLow⟩ same
  have firstBound := firstLow.isLt
  have secondBound := secondLow.isLt
  change firstHigh.toNat * 2 ^ 32 + firstLow.toNat = secondHigh.toNat * 2 ^ 32 + secondLow.toNat at same
  have high : firstHigh = secondHigh := BitVec.eq_of_toNat_eq (by omega)
  have low : firstLow = secondLow := BitVec.eq_of_toNat_eq (by omega)
  rw [high, low]

/-- The derived order compares the words from the most significant one on. -/
instance : LinearOrder U160 where
  le first second := first.toNat ≤ second.toNat
  le_refl first := Nat.le_refl _
  le_trans first second third := Nat.le_trans
  le_antisymm first second le ge := toNat_injective (Nat.le_antisymm le ge)
  le_total first second := Nat.le_total _ _
  toDecidableLE first second := inferInstanceAs (Decidable (first.toNat ≤ second.toNat))

theorem lt_iff_toNat_lt {first second : U160} : first < second <-> first.toNat < second.toNat := by
  rw [lt_iff_not_ge, lt_iff_not_ge]
  rfl

theorem lt_iff {first second : U160} : first < second <->
    first.msbytes < second.msbytes ∨ (first.msbytes = second.msbytes ∧ first.lsbytes < second.lsbytes) := by
  have firstBound := first.lsbytes.isLt
  have secondBound := second.lsbytes.isLt
  rw [lt_iff_toNat_lt, toNat, toNat, BitVec.lt_def, BitVec.lt_def, <- BitVec.toNat_inj]
  omega

/-- `Ord::cmp` as it is derived. -/
def cmp (self other : U160) : Ordering :=
  (compare self.msbytes other.msbytes).then (compare self.lsbytes other.lsbytes)

theorem cmp_eq_lt {first second : U160} : first.cmp second = .lt <-> first.toNat < second.toNat := by
  have less : forall {width : Nat} {first second : BitVec width},
      compare first second = .lt <-> first < second := compareOfLessAndEq_eq_lt
  have equal : compare first.msbytes second.msbytes = .eq <-> first.msbytes = second.msbytes :=
    compareOfLessAndEq_eq_eq BitVec.le_refl BitVec.not_le
  rw [<- lt_iff_toNat_lt, lt_iff, cmp, Ordering.then_eq_lt, less, less, equal]

/-- No two ids are equally far from a target. -/
theorem distance_injective (target : U160) : Function.Injective target.distance := by
  intro first second same
  apply eq_of_getBit_eq
  intro index _
  have bits := congrArg (fun id => getBit id index) same
  simp only [getBit_distance, Bool.xor_right_inj] at bits
  exact bits

/-- A bit of the number is a bit of one of the two words. -/
theorem testBit_toNat (id : U160) (bit : Nat) :
    id.toNat.testBit bit = if bit < 32 then id.lsbytes.getLsbD bit else id.msbytes.getLsbD (bit - 32) := by
  have split : id.toNat = 2 ^ 32 * id.msbytes.toNat + id.lsbytes.toNat := by
    rw [toNat, Nat.mul_comm]
  rw [split, Nat.testBit_two_pow_mul_add _ id.lsbytes.isLt]
  rfl

/-- The bits of an id are those of its number, the most significant one first. -/
theorem getBit_eq_testBit {index : Nat} (id : U160) (inside : index < 160) :
    id.getBit index = id.toNat.testBit (159 - index) := by
  rw [testBit_toNat]
  by_cases high : index < 128
  · rw [getBit_of_lt id high, BitVec.getMsbD_eq_getLsbD, decide_eq_true high, Bool.true_and, if_neg (by omega)]
    have same : 159 - index - 32 = 127 - index := by omega
    rw [same]
  · have position : index = 128 + (index - 128) := by omega
    have low : index - 128 < 32 := by omega
    rw [position, getBit_low id low, BitVec.getMsbD_eq_getLsbD, decide_eq_true low, Bool.true_and,
      if_pos (by omega)]
    have same : 159 - (128 + (index - 128)) = 32 - 1 - (index - 128) := by omega
    rw [same]

/-- The first differing bit decides the order. -/
theorem lt_of_getBit {first second : U160} {depth : Nat}
    (agree : forall index, index < depth -> first.getBit index = second.getBit index)
    (low : first.getBit depth = false) (high : second.getBit depth = true) : first < second := by
  have inside : depth < 160 := by
    by_contra outside
    rw [getBit, if_pos (Nat.le_of_not_lt outside)] at high
    cases high
  rw [getBit_eq_testBit _ inside] at low high
  have less : first.toNat < second.toNat := by
    apply Nat.lt_of_testBit (159 - depth) low high
    intro bit above
    by_cases within : bit < 160
    · have same := agree (159 - bit) (by omega)
      rw [getBit_eq_testBit _ (by omega), getBit_eq_testBit _ (by omega), Nat.sub_sub_self (by omega)] at same
      exact same
    · have large : 2 ^ 160 ≤ 2 ^ bit := Nat.pow_le_pow_right (by decide) (Nat.le_of_not_lt within)
      rw [Nat.testBit_lt_two_pow (Nat.lt_of_lt_of_le first.toNat_lt large),
        Nat.testBit_lt_two_pow (Nat.lt_of_lt_of_le second.toNat_lt large)]
  exact lt_iff_toNat_lt.mpr less

/-- Of two ids that part from each other at some bit, the one that agrees with the
target there is closer to it. -/
theorem distance_lt {target near far : U160} {depth : Nat}
    (agree : forall index, index < depth -> near.getBit index = far.getBit index)
    (same : target.getBit depth = near.getBit depth) (differs : target.getBit depth ≠ far.getBit depth) :
    target.distance near < target.distance far := by
  refine lt_of_getBit ?_ ?_ (getBit_distance_eq_true.mpr differs)
  · intro index before
    rw [getBit_distance, getBit_distance, agree index before]
  · rw [getBit_distance, same, Bool.xor_self]

end U160
end DhtExplorer
