import Mathlib.Data.List.Nodup

/-!
# Items in the order in which they were last used

A history of uses gives every key the number of uses since its own last one.  A
list of items is in order when this number decreases along it.  A use makes all
other keys older and its own key the youngest, so a list stays in order when the
item that was used moves to the end.
-/

namespace Recency

universe u v

variable {Key : Type u} {Item : Type v} [DecidableEq Key]

/-- The number of uses after the last one of a key. -/
def sinceLast (history : List Key) (key : Key) : Nat := history.reverse.findIdx fun used => used == key

/-- The ages after one more use. -/
def ageAfter (age : Key -> Nat) (used key : Key) : Nat := if key = used then 0 else age key + 1

theorem sinceLast_concat (history : List Key) (used : Key) :
    sinceLast (history ++ [used]) = ageAfter (sinceLast history) used := by
  funext key
  rw [sinceLast, List.reverse_append, List.reverse_singleton, List.singleton_append, List.findIdx_cons, ageAfter]
  by_cases same : key = used
  · rw [if_pos same, beq_iff_eq.mpr same.symm, cond_true]
  · rw [if_neg same, beq_eq_false_iff_ne.mpr (Ne.symm same), cond_false]
    rfl

/-- The items with older keys come first. -/
def InOrder (keyOf : Item -> Key) (age : Key -> Nat) (items : List Item) : Prop :=
  items.Pairwise fun first second => age (keyOf second) < age (keyOf first)

instance (keyOf : Item -> Key) (age : Key -> Nat) (items : List Item) : Decidable (InOrder keyOf age items) :=
  inferInstanceAs (Decidable (items.Pairwise _))

variable {keyOf : Item -> Key} {age : Key -> Nat} {used : Key} {items before after : List Item} {item : Item}

/-- The use of another key does not touch the order. -/
theorem InOrder.use_other (inOrder : InOrder keyOf age items) (absent : used ∉ items.map keyOf) :
    InOrder keyOf (ageAfter age used) items := by
  have other : forall item, item ∈ items -> ageAfter age used (keyOf item) = age (keyOf item) + 1 := by
    intro item member
    have different : keyOf item ≠ used := fun same => absent (same ▸ List.mem_map_of_mem member)
    exact if_neg different
  apply List.Pairwise.imp_of_mem _ inOrder
  intro first second firstMember secondMember older
  rw [other first firstMember, other second secondMember]
  exact Nat.succ_lt_succ older

/-- The item that is used belongs behind all others. -/
theorem InOrder.append_used (inOrder : InOrder keyOf age items) (absent : keyOf item ∉ items.map keyOf) :
    InOrder keyOf (ageAfter age (keyOf item)) (items ++ [item]) := by
  apply List.pairwise_append.mpr
  refine ⟨inOrder.use_other absent, List.pairwise_singleton _ _, ?_⟩
  intro first firstMember last lastMember
  have different : keyOf first ≠ keyOf item := fun same => absent (same ▸ List.mem_map_of_mem firstMember)
  rw [List.mem_singleton.mp lastMember, ageAfter, if_pos rfl, ageAfter, if_neg different]
  exact Nat.succ_pos _

/-- An item that is used moves to the end. -/
theorem InOrder.move_used (inOrder : InOrder keyOf age (before ++ item :: after))
    (nodup : ((before ++ item :: after).map keyOf).Nodup) :
    InOrder keyOf (ageAfter age (keyOf item)) (before ++ after ++ [item]) := by
  have others : InOrder keyOf age (before ++ after) :=
    List.Pairwise.sublist ((List.sublist_cons_self item after).append_left before) inOrder
  apply others.append_used
  rw [List.map_append, List.map_cons] at nodup
  rw [List.map_append]
  exact (List.nodup_cons.mp (List.perm_middle.nodup_iff.mp nodup)).1

end Recency
