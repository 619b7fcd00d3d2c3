import Mathlib.Data.Finset.Card
import Mathlib.Data.List.Nodup
import Mathlib.Data.Set.Finite.Lemmas
import Mathlib.Order.Lattice

/-!
# Ordered sets

The items of an ordered set stand in the order of their keys, and no two of them
have the same key.  An item whose key is there already is not taken: the set keeps
the item it has.  Keys need not determine items, so the set may refuse an item it
does not hold.

Positions in the set count smaller keys.  This gives the bounds for code that
compares an item with the one at a fixed position.
-/

universe u v

variable {Item : Type u} {Key : Type v} [LinearOrder Key] {keyOf : Item -> Key}

structure OrderedSet (Item : Type u) {Key : Type v} [LinearOrder Key] (keyOf : Item -> Key) where
  items : List Item
  sorted : items.Pairwise fun first second => keyOf first < keyOf second

namespace OrderedSet

def empty : OrderedSet Item keyOf := ⟨[], List.Pairwise.nil⟩

/-- Put an item at the place of its key, unless the key is there. -/
def place (keyOf : Item -> Key) (item : Item) : List Item -> List Item
  | [] => [item]
  | head :: rest =>
      if keyOf item < keyOf head then item :: head :: rest
      else if keyOf head < keyOf item then head :: place keyOf item rest
      else head :: rest

def hasKey (set : OrderedSet Item keyOf) (key : Key) : Bool := set.items.any fun item => keyOf item = key

theorem hasKey_iff {set : OrderedSet Item keyOf} {key : Key} :
    set.hasKey key = true <-> Exists fun item => item ∈ set.items ∧ keyOf item = key := by
  simp [hasKey]

/-! ## Placing -/

variable {item other : Item} {items : List Item}

theorem sublist_place (keyOf : Item -> Key) (item : Item) (items : List Item) :
    items.Sublist (place keyOf item items) := by
  induction items with
  | nil => exact List.nil_sublist _
  | cons head rest ih =>
      unfold place
      split
      · exact List.sublist_cons_self _ _
      · split
        · exact ih.cons_cons head
        · exact List.Sublist.refl _

theorem length_place_le (keyOf : Item -> Key) (item : Item) (items : List Item) :
    (place keyOf item items).length ≤ items.length + 1 := by
  induction items with
  | nil => exact le_refl 1
  | cons head rest ih =>
      unfold place
      split
      · exact le_refl _
      · split
        · exact Nat.succ_le_succ ih
        · exact Nat.le_succ _

theorem mem_place (sorted : items.Pairwise fun first second => keyOf first < keyOf second) :
    other ∈ place keyOf item items <->
      other ∈ items ∨ (other = item ∧ forall present, present ∈ items -> keyOf present ≠ keyOf item) := by
  induction items with
  | nil => simp [place]
  | cons head rest ih =>
      rw [List.pairwise_cons] at sorted
      unfold place
      split
      · rename_i before
        have absent : forall present, present ∈ head :: rest -> keyOf present ≠ keyOf item := by
          intro present member same
          rcases List.mem_cons.mp member with rfl | later
          · exact absurd before (same ▸ lt_irrefl _)
          · exact absurd (sorted.1 present later) (not_lt_of_gt (same ▸ before))
        constructor
        · intro member
          rcases List.mem_cons.mp member with new | old
          · exact Or.inr ⟨new, absent⟩
          · exact Or.inl old
        · rintro (old | ⟨rfl, _⟩)
          · exact List.mem_cons_of_mem _ old
          · exact List.mem_cons_self
      · split
        · rename_i after
          rw [List.mem_cons, ih sorted.2, List.mem_cons, or_assoc, List.forall_mem_cons]
          have differs : keyOf head ≠ keyOf item := ne_of_lt after
          simp only [ne_eq, differs, not_false_eq_true, true_and]
        · rename_i notBefore notAfter
          have same : keyOf head = keyOf item := le_antisymm (not_lt.mp notBefore) (not_lt.mp notAfter)
          constructor
          · exact Or.inl
          · rintro (old | ⟨_, absent⟩)
            · exact old
            · exact absurd same (absent head List.mem_cons_self)

/-- An item with a new key is one more item. -/
theorem perm_place (absent : forall present, present ∈ items -> keyOf present ≠ keyOf item) :
    (place keyOf item items).Perm (item :: items) := by
  induction items with
  | nil => exact List.Perm.refl _
  | cons head rest ih =>
      have later := ih fun present member => absent present (List.mem_cons_of_mem _ member)
      unfold place
      split
      · exact List.Perm.refl _
      · split
        · exact (later.cons head).trans (List.Perm.swap item head rest)
        · rename_i notBefore notAfter
          have same : keyOf head = keyOf item := le_antisymm (not_lt.mp notBefore) (not_lt.mp notAfter)
          exact absurd same (absent head List.mem_cons_self)

theorem sorted_place (sorted : items.Pairwise fun first second => keyOf first < keyOf second) :
    (place keyOf item items).Pairwise fun first second => keyOf first < keyOf second := by
  induction items with
  | nil => exact List.pairwise_singleton _ _
  | cons head rest ih =>
      have tail := (List.pairwise_cons.mp sorted).2
      unfold place
      split
      · rename_i before
        refine List.pairwise_cons.mpr ⟨fun present member => ?_, sorted⟩
        rcases List.mem_cons.mp member with rfl | later
        · exact before
        · exact lt_trans before ((List.pairwise_cons.mp sorted).1 present later)
      · split
        · rename_i after
          refine List.pairwise_cons.mpr ⟨fun present member => ?_, ih tail⟩
          rcases (mem_place tail).mp member with old | ⟨rfl, _⟩
          · exact (List.pairwise_cons.mp sorted).1 present old
          · exact after
        · exact sorted

/-! ## Inserting -/

/-- The set with the item, and whether the item was taken. -/
def insert (set : OrderedSet Item keyOf) (item : Item) : OrderedSet Item keyOf × Bool :=
  (⟨place keyOf item set.items, sorted_place set.sorted⟩, !set.hasKey (keyOf item))

variable {set : OrderedSet Item keyOf}

theorem sublist_insert (set : OrderedSet Item keyOf) (item : Item) :
    set.items.Sublist (set.insert item).1.items := sublist_place keyOf item set.items

theorem length_insert_le (set : OrderedSet Item keyOf) (item : Item) :
    (set.insert item).1.items.length ≤ set.items.length + 1 := length_place_le keyOf item set.items

theorem insert_taken : (set.insert item).2 = true <->
    forall present, present ∈ set.items -> keyOf present ≠ keyOf item := by
  change (!set.hasKey (keyOf item)) = true <-> _
  rw [Bool.not_eq_true', Bool.eq_false_iff, ne_eq, hasKey_iff]
  simp only [not_exists, not_and, ne_eq]

theorem mem_insert : other ∈ (set.insert item).1.items <->
    other ∈ set.items ∨ (other = item ∧ (set.insert item).2 = true) := by
  rw [insert_taken]
  exact mem_place set.sorted

theorem perm_insert_of_taken (taken : (set.insert item).2 = true) :
    (set.insert item).1.items.Perm (item :: set.items) := perm_place (insert_taken.mp taken)

/-- Whatever was there before, the key is there afterwards. -/
theorem key_mem_insert (set : OrderedSet Item keyOf) (item : Item) :
    Exists fun present => present ∈ (set.insert item).1.items ∧ keyOf present = keyOf item := by
  cases taken : (set.insert item).2 with
  | true => exact ⟨item, mem_insert.mpr (Or.inr ⟨rfl, taken⟩), rfl⟩
  | false =>
      change (!set.hasKey (keyOf item)) = false at taken
      rw [Bool.not_eq_false', hasKey_iff] at taken
      rcases taken with ⟨present, member, same⟩
      exact ⟨present, (set.sublist_insert item).mem member, same⟩

theorem nodup_keys (set : OrderedSet Item keyOf) : (set.items.map keyOf).Nodup :=
  List.pairwise_map.mpr (set.sorted.imp fun less => ne_of_lt less)

theorem eq_of_key_eq (set : OrderedSet Item keyOf) {first second : Item} (firstMember : first ∈ set.items)
    (secondMember : second ∈ set.items) (same : keyOf first = keyOf second) : first = second :=
  List.inj_on_of_nodup_map set.nodup_keys firstMember secondMember same

/-! ## Positions -/

/-- The number of items with a smaller key. -/
def below (set : OrderedSet Item keyOf) (key : Key) : Nat := set.items.countP fun item => keyOf item < key

theorem below_insert (set : OrderedSet Item keyOf) (item : Item) (key : Key) :
    set.below key ≤ (set.insert item).1.below key := (set.sublist_insert item).countP_le

theorem below_mono (set : OrderedSet Item keyOf) {smaller larger : Key} (le : smaller ≤ larger) :
    set.below smaller ≤ set.below larger := by
  apply List.countP_mono_left
  intro item _ less
  rw [decide_eq_true_iff] at less ⊢
  exact lt_of_lt_of_le less le

/-- In front of a position are smaller keys only. -/
theorem le_below_of_getElem? {position : Nat} (found : set.items[position]? = some item) :
    position ≤ set.below (keyOf item) := by
  rcases List.getElem?_eq_some_iff.mp found with ⟨inside, same⟩
  have split : set.items = set.items.take position ++ item :: set.items.drop (position + 1) := by
    rw [<- same, <- List.drop_eq_getElem_cons inside, List.take_append_drop]
  have front : forall present, present ∈ set.items.take position -> keyOf present < keyOf item := by
    have sorted := set.sorted
    rw [split] at sorted
    exact fun present member => (List.pairwise_append.mp sorted).2.2 present member item List.mem_cons_self
  calc
    position = (set.items.take position).length := (List.length_take_of_le (Nat.le_of_lt inside)).symm
    _ = (set.items.take position).countP fun present => keyOf present < keyOf item :=
      (List.countP_eq_length.mpr fun present member => decide_eq_true (front present member)).symm
    _ ≤ set.below (keyOf item) := (List.take_sublist _ _).countP_le

/-- Among the first kept items, or behind too few of them, a key has fewer smaller
keys in front of it than kept and dropped items together. -/
theorem below_lt_of_take {keep : Item -> Bool} {count : Nat} {key : Key}
    (reaches : ((set.items.filter keep).take count).length < count ∨
      Exists fun last => last ∈ (set.items.filter keep).take count ∧ key ≤ keyOf last) :
    set.below key < count + (set.items.filter fun item => !keep item).length := by
  have kept : ((set.items.filter keep).countP fun item => keyOf item < key) < count := by
    rcases reaches with short | ⟨last, member, le⟩
    · rw [List.length_take] at short
      have bound := List.countP_le_length (p := fun item => decide (keyOf item < key)) (l := set.items.filter keep)
      omega
    · have sorted : (set.items.filter keep).Pairwise fun first second => keyOf first < keyOf second :=
        set.sorted.sublist List.filter_sublist
      rw [<- List.take_append_drop count (set.items.filter keep)] at sorted ⊢
      have back : (((set.items.filter keep).drop count).countP fun item => keyOf item < key) = 0 := by
        apply List.countP_eq_zero.mpr
        intro item later
        rw [decide_eq_true_iff]
        exact not_lt.mpr (le_trans le (le_of_lt ((List.pairwise_append.mp sorted).2.2 last member item later)))
      have front : (((set.items.filter keep).take count).countP fun item => keyOf item < key) <
          ((set.items.filter keep).take count).length := by
        apply Nat.lt_of_le_of_ne List.countP_le_length
        intro all
        exact absurd (of_decide_eq_true (List.countP_eq_length.mp all last member)) (not_lt.mpr le)
      rw [List.countP_append, back]
      exact Nat.lt_of_lt_of_le front (List.length_take_le _ _)
  rw [below, List.countP_eq_countP_filter_add _ _ keep]
  exact Nat.add_lt_add_of_lt_of_le kept List.countP_le_length

/-- More smaller keys than there are exceptions include one that is no exception. -/
theorem exists_below [DecidableEq Item] {exceptions : Finset Item} {key : Key}
    (few : exceptions.card < set.below key) :
    Exists fun item => item ∈ set.items ∧ keyOf item < key ∧ item ∉ exceptions := by
  by_contra none
  have inside : (set.items.filter fun item => keyOf item < key).toFinset ⊆ exceptions := by
    intro item member
    rw [List.mem_toFinset, List.mem_filter, decide_eq_true_iff] at member
    by_contra outside
    exact none ⟨item, member.1, member.2, outside⟩
  have nodup : (set.items.filter fun item => keyOf item < key).Nodup := (List.Nodup.of_map _ set.nodup_keys).filter _
  have bound := Finset.card_le_card inside
  rw [List.toFinset_card_of_nodup nodup, <- List.countP_eq_length_filter] at bound
  exact absurd few (Nat.not_lt.mpr bound)

/-- Chosen items that lead to smaller ones, all but one of them, lead to that one. -/
theorem mem_of_descends {chosen : Item -> Prop} {last : Item}
    (nonempty : Exists fun item => item ∈ set.items ∧ chosen item)
    (descends : forall item, item ∈ set.items -> chosen item ->
      item = last ∨ Exists fun smaller => smaller ∈ set.items ∧ chosen smaller ∧ keyOf smaller < keyOf item) :
    last ∈ set.items := by
  have finite : {item | item ∈ set.items ∧ chosen item}.Finite :=
    (List.finite_toSet set.items).subset fun _ both => both.1
  rcases Set.exists_min_image _ keyOf finite nonempty with ⟨least, ⟨member, isChosen⟩, le⟩
  rcases descends least member isChosen with rfl | ⟨smaller, smallerMember, smallerChosen, less⟩
  · exact member
  · exact absurd less (not_lt.mpr (le smaller ⟨smallerMember, smallerChosen⟩))

/-! ## Taking the first item -/

def popFirst : OrderedSet Item keyOf -> Option (Item × OrderedSet Item keyOf)
  | ⟨[], _⟩ => none
  | ⟨item :: rest, sorted⟩ => some (item, ⟨rest, (List.pairwise_cons.mp sorted).2⟩)

theorem popFirst_eq_none (empty : set.popFirst = none) : set.items = [] := by
  rcases set with ⟨items, sorted⟩
  cases items with
  | nil => rfl
  | cons item rest => cases empty

theorem popFirst_eq_some {rest : OrderedSet Item keyOf} (popped : set.popFirst = some (item, rest)) :
    set.items = item :: rest.items := by
  rcases set with ⟨items, sorted⟩
  cases items with
  | nil => cases popped
  | cons head tail =>
      cases popped
      rfl

end OrderedSet
