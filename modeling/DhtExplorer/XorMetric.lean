import DhtExplorer.CommonPrefix
import DhtExplorer.Library.Words

namespace DhtExplorer

/-!
# The distance as a metric

The distance of two ids is an exclusive or.  Read as a number it satisfies the
triangle inequality, and every distance from an id leads to exactly one other.

Searches compare distances by the derived order of the two words, buckets compare
ids bit by bit.  Both say the same: of two ids the one that agrees with a target
in the first bit in which they differ is closer to it.
-/

namespace U160

theorem toNat_distance (first second : U160) : (first.distance second).toNat = first.toNat ^^^ second.toNat := by
  apply Nat.eq_of_testBit_eq
  intro bit
  rw [Nat.testBit_xor, testBit_toNat, testBit_toNat, testBit_toNat]
  by_cases low : bit < 32
  · rw [if_pos low, if_pos low, if_pos low]
    exact BitVec.getLsbD_xor
  · rw [if_neg low, if_neg low, if_neg low]
    exact BitVec.getLsbD_xor

theorem distance_comm (first second : U160) : first.distance second = second.distance first := by
  apply toNat_injective
  rw [toNat_distance, toNat_distance, Nat.xor_comm]

/-- The distance from an id to the id at a distance is that distance. -/
theorem distance_distance (id far : U160) : id.distance (id.distance far) = far := by
  apply toNat_injective
  rw [toNat_distance, toNat_distance, Nat.xor_xor_cancel_left]

theorem distance_triangle (first middle last : U160) :
    (first.distance last).toNat ≤ (first.distance middle).toNat + (middle.distance last).toNat := by
  have through : first.toNat ^^^ last.toNat =
      (first.toNat ^^^ middle.toNat) ^^^ (middle.toNat ^^^ last.toNat) := by
    rw [Nat.xor_assoc, Nat.xor_xor_cancel_left]
  rw [toNat_distance, toNat_distance, toNat_distance, through]
  exact Words.xor_le_add _ _

/-- Different ids part from each other at some bit. -/
theorem exists_first_difference {first second : U160} (different : first ≠ second) :
    Exists fun depth => depth < 160 ∧ SharesPrefix first second depth ∧
      first.getBit depth ≠ second.getBit depth := by
  have differs : Exists fun index => index < 160 ∧ first.getBit index ≠ second.getBit index := by
    by_contra none
    apply different
    apply eq_of_getBit_eq
    intro index inside
    by_contra apart
    exact none ⟨index, inside, apart⟩
  refine ⟨Nat.find differs, (Nat.find_spec differs).1, ?_, (Nat.find_spec differs).2⟩
  intro index before
  by_contra apart
  have inside := Nat.lt_trans before (Nat.find_spec differs).1
  exact Nat.find_min differs before ⟨inside, apart⟩

/-- Of two ids the closer one is the one that agrees with the target where they part. -/
theorem distance_lt_iff {near far target : U160} : near.distance target < far.distance target <->
    Exists fun depth => depth < 160 ∧ SharesPrefix near far depth ∧
      near.getBit depth ≠ far.getBit depth ∧ near.getBit depth = target.getBit depth := by
  rw [distance_comm near, distance_comm far]
  constructor
  · intro closer
    have different : near ≠ far := by
      rintro rfl
      exact lt_irrefl _ closer
    rcases exists_first_difference different with ⟨depth, inside, shares, apart⟩
    refine ⟨depth, inside, shares, apart, ?_⟩
    by_contra other
    -- the bits have two values, so the far id agrees with the target
    have agrees : target.getBit depth = far.getBit depth := by
      revert apart other
      cases near.getBit depth <;> cases far.getBit depth <;> cases target.getBit depth <;> decide
    have farther : target.distance far < target.distance near := by
      apply distance_lt (fun index before => (shares index before).symm) agrees
      exact fun same => other same.symm
    exact lt_asymm closer farther
  · rintro ⟨depth, _, shares, apart, agrees⟩
    exact distance_lt shares agrees.symm fun same => apart (agrees.trans same)

/-- The number of a distance obeys the triangle inequality, a distance from an id
determines the other id, and the derived order of distances is decided by the
first bit in which two ids differ. -/
theorem xor_metric (first second third : U160) :
    (first.distance third).toNat ≤ (first.distance second).toNat + (second.distance third).toNat ∧
    (forall far, ExistsUnique fun other => first.distance other = far) ∧
    (first.cmp second = .lt <-> first.toNat < second.toNat) ∧
    ((first.distance third).cmp (second.distance third) = .lt <->
      Exists fun index => index < 160 ∧
        (forall earlier, earlier < index -> first.getBit earlier = second.getBit earlier) ∧
        first.getBit index ≠ second.getBit index ∧ first.getBit index = third.getBit index) := by
  refine ⟨distance_triangle first second third, ?_, cmp_eq_lt, ?_⟩
  · intro far
    refine ⟨first.distance far, distance_distance first far, ?_⟩
    intro other same
    apply distance_injective first
    rw [distance_distance]
    exact same
  · rw [cmp_eq_lt, <- lt_iff_toNat_lt]
    exact distance_lt_iff

end U160
end DhtExplorer
