import Mathlib.Data.List.Perm.Subperm

/-!
# Random samples

Which items a sample takes is up to the random source behind it.  What is certain is
that it takes as many as it is asked for, or all of them, and none twice.  A sampler
stands for one source, so a statement about every sampler holds whatever is drawn.
-/

universe u

/-- What one random source makes of lists to choose from. -/
structure Sampler (α : Type u) where
  chooseMultiple : Nat -> List α -> List α
  subperm : forall amount items, (chooseMultiple amount items).Subperm items
  length : forall amount items, (chooseMultiple amount items).length = min amount items.length

namespace Sampler

variable {α : Type u} {sampler : Sampler α} {amount : Nat} {items : List α} {item : α}

/-- A sample comes from the items. -/
theorem mem_of_mem (member : item ∈ sampler.chooseMultiple amount items) : item ∈ items :=
  (sampler.subperm amount items).subset member

/-- All items are taken where they are not too many. -/
theorem mem_of_few (few : items.length ≤ amount) (member : item ∈ items) :
    item ∈ sampler.chooseMultiple amount items := by
  have long : items.length ≤ (sampler.chooseMultiple amount items).length := by
    exact Nat.le_of_eq ((sampler.length amount items).trans (Nat.min_eq_right few)).symm
  exact ((sampler.subperm amount items).perm_of_length_le long).symm.subset member

/-! ## Reservoirs -/

/-- The later items of a sampling: each replaces a random slot, or none. -/
def replaceSlots (draws : Nat -> Nat) (amount : Nat) : Nat -> List α -> List α -> List α
  | _, reservoir, [] => reservoir
  | round, reservoir, item :: rest =>
      replaceSlots draws amount (round + 1) (reservoir.set (draws round % (round + 1 + amount)) item) rest

theorem length_replaceSlots (draws : Nat -> Nat) (amount round : Nat) (reservoir items : List α) :
    (replaceSlots draws amount round reservoir items).length = reservoir.length := by
  induction items generalizing round reservoir with
  | nil => rfl
  | cons item rest ih => rw [replaceSlots, ih, List.length_set]

theorem set_subperm (reservoir : List α) (slot : Nat) (item : α) :
    (reservoir.set slot item).Subperm (item :: reservoir) := by
  by_cases inside : slot < reservoir.length
  · refine (List.set_perm_cons_eraseIdx inside item).subperm.trans ?_
    exact ((List.eraseIdx_sublist reservoir slot).cons_cons item).subperm
  · rw [List.set_eq_of_length_le (Nat.not_lt.mp inside)]
    exact (List.sublist_cons_self item reservoir).subperm

theorem replaceSlots_subperm (draws : Nat -> Nat) (amount round : Nat) (reservoir items : List α) :
    (replaceSlots draws amount round reservoir items).Subperm (reservoir ++ items) := by
  induction items generalizing round reservoir with
  | nil => exact (List.append_nil reservoir).symm ▸ List.Subperm.refl reservoir
  | cons item rest ih =>
      refine (ih _ _).trans ?_
      refine ((List.subperm_append_right rest).mpr (set_subperm reservoir _ item)).trans ?_
      exact List.perm_middle.symm.subperm

/-- The first items fill a reservoir, in which the draws put the later ones. -/
def reservoir (draws : Nat -> Nat) : Sampler α where
  chooseMultiple := fun amount items => replaceSlots draws amount 0 (items.take amount) (items.drop amount)
  subperm := by
    intro amount items
    have all := replaceSlots_subperm draws amount 0 (items.take amount) (items.drop amount)
    rwa [List.take_append_drop] at all
  length := fun amount items => by rw [length_replaceSlots, List.length_take]

end Sampler
