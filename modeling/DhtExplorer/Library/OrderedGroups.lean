import Mathlib.Data.List.Pairwise
import Mathlib.Order.Lattice

/-!
# The first items of ordered groups

Items come in groups, and every item of a group has a smaller key than every item
of a later group.  Inside a group nothing is said about the order.  Whoever takes
the first items of all groups cuts at most one group in two.  The cut alone
decides whether the smallest keys were taken; across groups the order is right.
-/

namespace OrderedGroups

universe u v

variable {Item : Type u} {Key : Type v} [LinearOrder Key] {keyOf : Item -> Key}

/-- Every key of the first group is smaller than every key of the second. -/
def Before (keyOf : Item -> Key) (first second : List Item) : Prop :=
  forall item, item ∈ first -> forall other, other ∈ second -> keyOf item < keyOf other

def Ordered (keyOf : Item -> Key) (groups : List (List Item)) : Prop := groups.Pairwise (Before keyOf)

/-- Two items of one group. -/
def Together (groups : List (List Item)) (item other : Item) : Prop :=
  Exists fun group => group ∈ groups ∧ item ∈ group ∧ other ∈ group

/-- Of every group, the items that are taken have the smallest keys.  The room that
is left for a group is what the earlier groups leave. -/
def CutsNearest (keyOf : Item -> Key) (room : Nat) (groups : List (List Item)) : Prop :=
  forall before group after, groups = before ++ group :: after ->
    forall item, item ∈ group.drop (room - before.flatten.length) ->
      forall taken, taken ∈ group.take (room - before.flatten.length) -> keyOf taken ≤ keyOf item

variable {groups : List (List Item)} {item other : Item} {room : Nat}

/-- Two groups are the same, or the keys tell them apart. -/
theorem Ordered.compare (ordered : Ordered keyOf groups) {first second : List Item} (firstMember : first ∈ groups)
    (secondMember : second ∈ groups) :
    first = second ∨ Before keyOf first second ∨ Before keyOf second first := by
  by_cases same : first = second
  · exact Or.inl same
  · have symmetric : Std.Symm fun first second => Before keyOf first second ∨ Before keyOf second first :=
      ⟨fun _ _ => Or.symm⟩
    have either : groups.Pairwise fun first second => Before keyOf first second ∨ Before keyOf second first :=
      List.Pairwise.imp Or.inl ordered
    exact Or.inr (either.forall firstMember secondMember same)

/-- An item is in one group only. -/
theorem Ordered.group_unique (ordered : Ordered keyOf groups) {first second : List Item}
    (firstMember : first ∈ groups) (secondMember : second ∈ groups) (inFirst : item ∈ first)
    (inSecond : item ∈ second) : first = second := by
  rcases ordered.compare firstMember secondMember with same | before | after
  · exact same
  · exact absurd (before item inFirst item inSecond) (lt_irrefl _)
  · exact absurd (after item inSecond item inFirst) (lt_irrefl _)

theorem Ordered.together_trans (ordered : Ordered keyOf groups) {third : Item} (first : Together groups item other)
    (second : Together groups other third) : Together groups item third := by
  rcases first with ⟨group, member, here, there⟩
  rcases second with ⟨group', member', there', last⟩
  have same := ordered.group_unique member member' there there'
  exact ⟨group, member, here, same ▸ last⟩

theorem Together.symm (together : Together groups item other) : Together groups other item := by
  rcases together with ⟨group, member, here, there⟩
  exact ⟨group, member, there, here⟩

/-- Items of different groups stand in the order of their keys. -/
theorem Ordered.flatten_pairwise (ordered : Ordered keyOf groups) :
    groups.flatten.Pairwise fun item other => Together groups item other ∨ keyOf item < keyOf other := by
  apply List.pairwise_flatten.mpr
  constructor
  · intro group member
    apply List.pairwise_of_forall_mem_list
    exact fun item here other there => Or.inl ⟨group, member, here, there⟩
  · exact ordered.imp fun before item here other there => Or.inr (before item here other there)

/-! ## What the first items leave out -/

/-- An item that is left out, in a group that is not the last one taken from, has a
larger key than all items that are taken. -/
theorem Ordered.left_out (ordered : Ordered keyOf groups) {front back : List Item} {last : Item}
    (split : groups.flatten = front ++ back) (ends : front.getLast? = some last) {out : Item}
    (outMember : out ∈ back) (apart : ¬Together groups last out) :
    forall taken, taken ∈ front -> keyOf taken < keyOf out := by
  intro taken member
  have pairs := ordered.flatten_pairwise
  rw [split] at pairs
  rcases List.pairwise_append.mp pairs with ⟨inside, _, across⟩
  have lastMember : last ∈ front := List.mem_of_getLast? ends
  have lastLess : keyOf last < keyOf out := (across last lastMember out outMember).resolve_left apart
  rcases across taken member out outMember with together | less
  · -- The last item stands between the two, so it would be in their group.
    have beforeLast : taken = last ∨ Together groups taken last ∨ keyOf taken < keyOf last := by
      rcases List.getLast?_eq_some_iff.mp ends with ⟨init, rfl⟩
      rcases List.mem_append.mp member with earlier | here
      · exact Or.inr ((List.pairwise_append.mp inside).2.2 taken earlier last List.mem_cons_self)
      · exact Or.inl (List.mem_singleton.mp here)
    rcases beforeLast with rfl | withLast | takenLess
    · exact absurd together apart
    · exact absurd (ordered.together_trans withLast.symm together) apart
    · exact lt_trans takenLess lastLess
  · exact less

/-! ## When the smallest keys are taken -/

theorem mem_take_flatten {before after : List (List Item)} {group : List Item}
    (member : item ∈ group.take (room - before.flatten.length)) :
    item ∈ (before ++ group :: after).flatten.take room := by
  rw [List.flatten_append, List.flatten_cons, List.take_append, List.take_append]
  exact List.mem_append_right _ (List.mem_append_left _ member)

theorem mem_drop_flatten {before after : List (List Item)} {group : List Item}
    (member : item ∈ group.drop (room - before.flatten.length)) :
    item ∈ (before ++ group :: after).flatten.drop room := by
  rw [List.flatten_append, List.flatten_cons, List.drop_append, List.drop_append]
  exact List.mem_append_right _ (List.mem_append_left _ member)

/-- The taken items have the smallest keys exactly when the cut is right. -/
theorem Ordered.nearest_iff (ordered : Ordered keyOf groups) (nodup : groups.flatten.Nodup) (room : Nat) :
    (forall item, item ∈ groups.flatten -> item ∉ groups.flatten.take room ->
      forall taken, taken ∈ groups.flatten.take room -> ¬keyOf item < keyOf taken) <->
      CutsNearest keyOf room groups := by
  have disjoint : forall item, item ∈ groups.flatten.take room -> item ∈ groups.flatten.drop room -> False := by
    intro item inTake inDrop
    rw [<- List.take_append_drop room groups.flatten] at nodup
    exact (List.nodup_append.mp nodup).2.2 item inTake item inDrop rfl
  constructor
  · intro nearest before group after split item dropped taken takenHere
    have out : item ∈ groups.flatten.drop room := by
      rw [split]
      exact mem_drop_flatten dropped
    have inside : taken ∈ groups.flatten.take room := by
      rw [split]
      exact mem_take_flatten takenHere
    exact not_lt.mp (nearest item (List.mem_of_mem_drop out) (fun member => disjoint item member out) taken inside)
  · intro cuts item member out taken inside less
    have dropped : item ∈ groups.flatten.drop room := by
      rw [<- List.take_append_drop room groups.flatten] at member
      exact (List.mem_append.mp member).resolve_left out
    have pairs := ordered.flatten_pairwise
    rw [<- List.take_append_drop room groups.flatten] at pairs
    rcases (List.pairwise_append.mp pairs).2.2 taken inside item dropped with ⟨group, groupMember, takenHere, here⟩ | more
    · rcases List.append_of_mem groupMember with ⟨before, after, rfl⟩
      have takenFirst : taken ∈ group.take (room - before.flatten.length) := by
        rw [<- List.take_append_drop (room - before.flatten.length) group] at takenHere
        exact (List.mem_append.mp takenHere).resolve_right fun later => disjoint taken inside (mem_drop_flatten later)
      have itemLater : item ∈ group.drop (room - before.flatten.length) := by
        rw [<- List.take_append_drop (room - before.flatten.length) group] at here
        exact (List.mem_append.mp here).resolve_left fun early => out (mem_take_flatten early)
      exact absurd less (not_lt.mpr (cuts before group after rfl item itemLater taken takenFirst))
    · exact lt_asymm more less

end OrderedGroups
