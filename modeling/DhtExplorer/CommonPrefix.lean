import DhtExplorer.U160

namespace DhtExplorer

/-!
# Common prefixes of ids

The eager table files an id under the number of leading bits it has in common
with the own id.  The chain decides by one bit at a time.  Both readings are
connected through `SharesPrefix`.
-/

/-- The first `depth` bits agree. -/
def SharesPrefix (own id : U160) (depth : Nat) : Prop :=
  forall index, index < depth -> own.getBit index = id.getBit index

/-- The number of leading bits two ids have in common. -/
def commonPrefix (own id : U160) : Nat :=
  ((List.range' 0 160).takeWhile fun index => own.getBit index == id.getBit index).length

theorem sharesPrefix_zero (own id : U160) : SharesPrefix own id 0 :=
  fun _ impossible => absurd impossible (Nat.not_lt_zero _)

theorem SharesPrefix.succ {own id : U160} {depth : Nat} (shares : SharesPrefix own id depth)
    (next : own.getBit depth = id.getBit depth) : SharesPrefix own id (depth + 1) := by
  intro index bound
  rcases Nat.lt_succ_iff_lt_or_eq.mp bound with earlier | same
  · exact shares index earlier
  · exact same ▸ next

theorem SharesPrefix.eq_of_all {own id : U160} (shares : SharesPrefix own id 160) : own = id :=
  U160.eq_of_getBit_eq shares

/-- A run over consecutive indexes is as long as the predicate holds. -/
private theorem le_length_takeWhile_range' (test : Nat -> Bool) (start count bound : Nat)
    (inside : bound ≤ count) :
    bound ≤ ((List.range' start count).takeWhile test).length <->
      forall offset, offset < bound -> test (start + offset) = true := by
  induction count generalizing start bound with
  | zero =>
      have empty : bound = 0 := Nat.le_zero.mp inside
      subst empty
      exact ⟨fun _ _ impossible => absurd impossible (Nat.not_lt_zero _), fun _ => Nat.zero_le _⟩
  | succ count ih =>
      cases bound with
      | zero => exact ⟨fun _ _ impossible => absurd impossible (Nat.not_lt_zero _), fun _ => Nat.zero_le _⟩
      | succ bound =>
          rw [List.range'_succ]
          cases first : test start with
          | false =>
              rw [List.takeWhile_cons_of_neg (by rw [first]; exact Bool.false_ne_true)]
              constructor
              · intro impossible
                exact absurd impossible (Nat.not_succ_le_zero bound)
              · intro all
                have atStart := all 0 (Nat.succ_pos _)
                rw [Nat.add_zero, first] at atStart
                exact absurd atStart Bool.false_ne_true
          | true =>
              rw [List.takeWhile_cons_of_pos first, List.length_cons, Nat.succ_le_succ_iff,
                ih (start + 1) bound (Nat.le_of_succ_le_succ inside)]
              constructor
              · intro later offset offsetBound
                cases offset with
                | zero => exact first
                | succ offset =>
                    have next := later offset (Nat.lt_of_succ_lt_succ offsetBound)
                    rwa [Nat.add_assoc, Nat.add_comm 1] at next
              · intro all offset offsetBound
                have next := all (offset + 1) (Nat.succ_lt_succ offsetBound)
                rwa [Nat.add_comm offset, ← Nat.add_assoc] at next

theorem le_commonPrefix {own id : U160} {depth : Nat} (inside : depth ≤ 160) :
    depth ≤ commonPrefix own id <-> SharesPrefix own id depth := by
  rw [commonPrefix, le_length_takeWhile_range' _ 0 160 depth inside]
  simp only [Nat.zero_add, beq_iff_eq]
  rfl

/-- The first differing bit is the length of the common prefix. -/
theorem commonPrefix_eq {own id : U160} {depth : Nat} (inside : depth < 160)
    (shares : SharesPrefix own id depth) (differs : own.getBit depth ≠ id.getBit depth) :
    commonPrefix own id = depth := by
  apply Nat.le_antisymm
  · by_contra longer
    have further := (le_commonPrefix (Nat.succ_le_of_lt inside)).mp (Nat.lt_of_not_le longer)
    exact differs (further depth (Nat.lt_succ_self depth))
  · exact (le_commonPrefix (Nat.le_of_lt inside)).mpr shares

/-- At most two ids agree with the own id in all bits but the last. -/
theorem eq_or_eq_of_sharesPrefix_159 {own first second third : U160}
    (firstShares : SharesPrefix own first 159) (secondShares : SharesPrefix own second 159)
    (thirdShares : SharesPrefix own third 159) (different : first ≠ second) :
    third = first ∨ third = second := by
  have determined : forall {left right : U160}, SharesPrefix own left 159 -> SharesPrefix own right 159 ->
      left.getBit 159 = right.getBit 159 -> left = right := by
    intro left right leftShares rightShares last
    apply SharesPrefix.eq_of_all
    apply SharesPrefix.succ _ last
    intro index bound
    exact (leftShares index bound).symm.trans (rightShares index bound)
  by_cases same : third.getBit 159 = first.getBit 159
  · exact Or.inl (determined thirdShares firstShares same)
  · refine Or.inr (determined thirdShares secondShares ?_)
    have apart : first.getBit 159 ≠ second.getBit 159 :=
      fun equal => different (determined firstShares secondShares equal)
    revert same apart
    cases third.getBit 159 <;> cases first.getBit 159 <;> cases second.getBit 159 <;> decide

end DhtExplorer
