import Mathlib.Algebra.GroupWithZero.Nat
import Mathlib.Data.List.Basic
import Mathlib.Data.List.Induction
import Mathlib.Data.List.Perm.Basic

/-!
# In-place operations of a growable array, on lists

`swap` exchanges two slots and `swapRemove` fills a freed slot with the last
element.  Both keep the multiset of the remaining elements, and `swapRemove`
leaves every earlier slot alone, which is what a loop that scans and removes at
the same time relies on.
-/

namespace VecOps

universe u

variable {α : Type u}

/-- Exchange two slots.  Out-of-range slots leave the list alone. -/
def swap (items : List α) (first second : Nat) : List α :=
  match items[first]?, items[second]? with
  | some left, some right => (items.set first right).set second left
  | _, _ => items

/-- Move the element of one slot towards the end, one exchange at a time. -/
def bubble : Nat -> List α -> Nat -> List α
  | 0, items, _ => items
  | steps + 1, items, index => bubble steps (swap items index (index + 1)) (index + 1)

/-- Delete a slot and fill it with the last element. -/
def swapRemove (items : List α) (index : Nat) : List α :=
  match items.getLast? with
  | none => items
  | some last => (items.set index last).dropLast

theorem swap_perm (items : List α) (first second : Nat) : (swap items first second).Perm items := by
  unfold swap
  split
  · rename_i left right atFirst atSecond
    rcases List.getElem?_eq_some_iff.mp atFirst with ⟨firstBound, rfl⟩
    rcases List.getElem?_eq_some_iff.mp atSecond with ⟨secondBound, rfl⟩
    exact List.set_set_perm firstBound secondBound
  · exact List.Perm.refl _

theorem bubble_perm (steps : Nat) (items : List α) (index : Nat) :
    (bubble steps items index).Perm items := by
  induction steps generalizing items index with
  | zero => exact List.Perm.refl _
  | succ steps ih => exact (ih _ _).trans (swap_perm items index (index + 1))

theorem swap_append_cons_cons (before rest : List α) (first second : α) :
    swap (before ++ first :: second :: rest) before.length (before.length + 1) =
      before ++ second :: first :: rest := by
  have atFirst : (before ++ first :: second :: rest)[before.length]? = some first := by
    rw [List.getElem?_append_right (Nat.le_refl _), Nat.sub_self]
    rfl
  have atSecond : (before ++ first :: second :: rest)[before.length + 1]? = some second := by
    rw [List.getElem?_append_right (Nat.le_add_right _ 1), Nat.add_sub_cancel_left]
    rfl
  rw [swap, atFirst, atSecond]
  change ((before ++ first :: second :: rest).set before.length second).set (before.length + 1) first = _
  rw [List.set_append_right _ _ (Nat.le_refl _), Nat.sub_self, List.set_cons_zero,
    List.set_append_right _ _ (Nat.le_add_right _ 1), Nat.add_sub_cancel_left]
  rfl

/-- An element that is moved through all later ones is the last. -/
theorem bubble_append_cons (before after : List α) (item : α) :
    bubble after.length (before ++ item :: after) before.length = before ++ after ++ [item] := by
  induction after generalizing before with
  | nil => rw [List.length_nil, bubble, List.append_nil]
  | cons next rest ih =>
      have moved := ih (before ++ [next])
      rw [List.length_append, List.length_singleton, List.append_assoc, List.singleton_append,
        List.append_assoc before, List.singleton_append] at moved
      rw [List.length_cons, bubble, swap_append_cons_cons]
      exact moved

/-- The last element in front of the others. -/
def lastFirst (items : List α) : List α :=
  match items.getLast? with
  | none => []
  | some last => last :: items.dropLast

theorem lastFirst_perm (items : List α) : (lastFirst items).Perm items := by
  rcases List.eq_nil_or_concat items with rfl | ⟨initial, last, rfl⟩
  · exact List.Perm.refl _
  · rw [List.concat_eq_append, lastFirst, List.getLast?_concat]
    change (last :: (initial ++ [last]).dropLast).Perm _
    rw [List.dropLast_concat]
    exact (List.perm_append_singleton last initial).symm

/-- Removing the slot behind a finished prefix keeps that prefix in place. -/
theorem swapRemove_append_cons (before after : List α) (removed : α) :
    swapRemove (before ++ removed :: after) before.length = before ++ lastFirst after := by
  rcases List.eq_nil_or_concat after with rfl | ⟨initial, last, rfl⟩
  · simp [swapRemove, lastFirst]
  · rw [List.concat_eq_append, swapRemove, lastFirst, List.getLast?_concat]
    have lastOf : (before ++ removed :: (initial ++ [last])).getLast? = some last := by
      rw [← List.cons_append, ← List.append_assoc, List.getLast?_concat]
    rw [lastOf]
    change ((before ++ removed :: (initial ++ [last])).set before.length last).dropLast =
      before ++ last :: (initial ++ [last]).dropLast
    rw [List.set_append_right _ _ (Nat.le_refl _), Nat.sub_self, List.set_cons_zero,
      ← List.cons_append, ← List.append_assoc, List.dropLast_concat, List.dropLast_concat]

/-- The same for an arbitrary occupied slot: exactly its element goes. -/
theorem swapRemove_spec {items : List α} {index : Nat} {removed : α}
    (found : items[index]? = some removed) :
    (swapRemove items index).take index = items.take index ∧
      (removed :: swapRemove items index).Perm items := by
  rcases List.getElem?_eq_some_iff.mp found with ⟨bound, rfl⟩
  have split : items.take index ++ items[index] :: items.drop (index + 1) = items := by
    rw [List.getElem_cons_drop, List.take_append_drop]
  have lengthTake : (items.take index).length = index := List.length_take_of_le (Nat.le_of_lt bound)
  have result := swapRemove_append_cons (items.take index) (items.drop (index + 1)) items[index]
  rw [lengthTake, split] at result
  refine ⟨?_, ?_⟩
  · rw [result, List.take_left' lengthTake]
  · rw [result]
    have front : (items[index] :: (items.take index ++ lastFirst (items.drop (index + 1)))).Perm
        (items.take index ++ items[index] :: items.drop (index + 1)) :=
      (((lastFirst_perm _).append_left _).cons _).trans List.perm_middle.symm
    rwa [split] at front

/-! ## Scanning and removing at the same time -/

/-- The loop that keeps what passes the test and swap-removes the rest: the kept
elements, and the removed ones in the order of their removal.  The first argument
is the number of elements. -/
def sift (keeps : α -> Bool) : Nat -> List α -> List α × List α
  | 0, _ => ([], [])
  | _ + 1, [] => ([], [])
  | remaining + 1, item :: rest =>
      if keeps item then
        let later := sift keeps remaining rest
        (item :: later.1, later.2)
      else
        let later := sift keeps remaining (lastFirst rest)
        (later.1, item :: later.2)

section Sift

variable {keeps : α -> Bool} {remaining : Nat} {item : α} {rest items : List α}

theorem sift_of_keeps (kept : keeps item = true) :
    sift keeps (remaining + 1) (item :: rest) =
      (item :: (sift keeps remaining rest).1, (sift keeps remaining rest).2) := by
  rw [sift, if_pos kept]

theorem sift_of_removes (removed : keeps item = false) :
    sift keeps (remaining + 1) (item :: rest) =
      ((sift keeps remaining (lastFirst rest)).1, item :: (sift keeps remaining (lastFirst rest)).2) := by
  rw [sift, if_neg (Bool.eq_false_iff.mp removed)]

theorem sift_perm (keeps : α -> Bool) (lengthEq : items.length = remaining) :
    ((sift keeps remaining items).1 ++ (sift keeps remaining items).2).Perm items := by
  induction remaining generalizing items with
  | zero =>
      rw [List.length_eq_zero_iff.mp lengthEq]
      exact List.Perm.refl _
  | succ remaining ih =>
      cases items with
      | nil => cases lengthEq
      | cons item rest =>
          have lengthRest : rest.length = remaining := Nat.succ.inj lengthEq
          cases test : keeps item with
          | true =>
              rw [sift_of_keeps test]
              exact (ih lengthRest).cons item
          | false =>
              rw [sift_of_removes test]
              have perm := lastFirst_perm rest
              exact List.perm_middle.trans (((ih (perm.length_eq.trans lengthRest)).trans perm).cons item)

/-- The loop tells the elements apart. -/
theorem sift_tests (keeps : α -> Bool) (remaining : Nat) (items : List α) :
    (forall item, item ∈ (sift keeps remaining items).1 -> keeps item = true) ∧
      (forall item, item ∈ (sift keeps remaining items).2 -> keeps item = false) := by
  induction remaining generalizing items with
  | zero => exact ⟨fun _ member => absurd member List.not_mem_nil, fun _ member => absurd member List.not_mem_nil⟩
  | succ remaining ih =>
      cases items with
      | nil => exact ⟨fun _ member => absurd member List.not_mem_nil, fun _ member => absurd member List.not_mem_nil⟩
      | cons item rest =>
          cases test : keeps item with
          | true =>
              rw [sift_of_keeps test]
              exact ⟨List.forall_mem_cons.mpr ⟨test, (ih rest).1⟩, (ih rest).2⟩
          | false =>
              rw [sift_of_removes test]
              exact ⟨(ih (lastFirst rest)).1, List.forall_mem_cons.mpr ⟨test, (ih (lastFirst rest)).2⟩⟩

/-- The tests, in order, of elements whose order the loop does not change: behind
the first elements that are kept there are only a few more. -/
def Undisturbed (flags : List Bool) : Prop :=
  flags.dropWhile id ∈ ([[], [false], [false, false], [false, true], [false, true, false], [false, false, true],
    [false, false, false, true]] : List (List Bool))

instance (flags : List Bool) : Decidable (Undisturbed flags) :=
  inferInstanceAs (Decidable (flags.dropWhile id ∈ _))

theorem undisturbed_of_length_le_two {flags : List Bool} (few : flags.length ≤ 2) : Undisturbed flags := by
  match flags with
  | [] => decide
  | [first] => cases first <;> decide
  | [first, second] => cases first <;> cases second <;> decide
  | _ :: _ :: _ :: _ => simp at few

/-- Where nothing is kept, more than two elements change their order. -/
theorem Undisturbed.length_le_two {flags : List Bool} (undisturbed : Undisturbed flags)
    (none : forall flag, flag ∈ flags -> flag = false) : flags.length ≤ 2 := by
  have all : flags.dropWhile id = flags := by
    cases flags with
    | nil => rfl
    | cons flag rest =>
        rw [none flag List.mem_cons_self]
        rfl
  rw [Undisturbed, all] at undisturbed
  simp only [List.mem_cons, List.not_mem_nil, or_false] at undisturbed
  rcases undisturbed with rfl | rfl | rfl | rfl | rfl | rfl | rfl <;> simp_all

/-- Both parts are then in the order of the whole. -/
theorem sift_of_undisturbed (undisturbed : Undisturbed (items.map keeps)) :
    sift keeps items.length items = (items.filter keeps, items.filter fun item => !keeps item) := by
  induction items with
  | nil => rfl
  | cons item rest ih =>
      cases test : keeps item with
      | true =>
          have later : Undisturbed (rest.map keeps) := by
            rw [Undisturbed, List.map_cons, test] at undisturbed
            exact undisturbed
          rw [List.length_cons, sift_of_keeps test, ih later]
          simp [test]
      | false =>
          have few : (item :: rest).map keeps ∈ ([[false], [false, false], [false, true], [false, true, false],
              [false, false, true], [false, false, false, true]] : List (List Bool)) := by
            rw [Undisturbed, List.map_cons, test] at undisturbed
            rw [List.map_cons, test]
            exact (List.mem_cons.mp undisturbed).resolve_left (List.cons_ne_nil _ _)
          -- At most three elements follow, and the loop is run on each.
          match rest with
          | [] => simp [sift, test]
          | [a] => cases first : keeps a <;> simp [sift, lastFirst, test, first]
          | [a, b] =>
              simp only [List.map_cons, List.map_nil, test] at few
              cases first : keeps a <;> cases second : keeps b <;>
                simp_all [sift, lastFirst]
          | [a, b, c] =>
              simp only [List.map_cons, List.map_nil, test] at few
              cases first : keeps a <;> cases second : keeps b <;> cases third : keeps c <;>
                simp_all [sift, lastFirst]
          | _ :: _ :: _ :: _ :: _ => simp at few

end Sift

/-! ## Reading and searching -/

/-- Reading an updated list. -/
theorem getElem?_set_cases {items : List α} {changed item : α} {target position : Nat}
    (found : (items.set target changed)[position]? = some item) :
    (target = position ∧ item = changed) ∨ (target ≠ position ∧ items[position]? = some item) := by
  by_cases same : target = position
  · subst same
    have inside : target < items.length := by
      have bound := (List.getElem?_eq_some_iff.mp found).1
      rwa [List.length_set] at bound
    rw [List.getElem?_set_self inside, Option.some.injEq] at found
    exact Or.inl ⟨rfl, found.symm⟩
  · rw [List.getElem?_set_ne same] at found
    exact Or.inr ⟨same, found⟩

theorem getElem?_modify_cases {items : List α} {change : α -> α} {item : α} {target position : Nat}
    (found : (items.modify target change)[position]? = some item) :
    Exists fun before => items[position]? = some before ∧
      ((target = position ∧ item = change before) ∨ (target ≠ position ∧ item = before)) := by
  rw [List.getElem?_modify] at found
  rcases Option.map_eq_some_iff.mp found with ⟨before, beforeFound, equal⟩
  refine ⟨before, beforeFound, ?_⟩
  by_cases same : target = position
  · rw [if_pos same] at equal
    exact Or.inl ⟨same, equal.symm⟩
  · rw [if_neg same] at equal
    exact Or.inr ⟨same, equal.symm⟩

theorem getElem?_modify_of_fixed {items : List α} {position : Nat} {item : α} {change : α -> α}
    (target : Nat) (found : items[position]? = some item) (fixed : change item = item) :
    (items.modify target change)[position]? = some item := by
  rw [List.getElem?_modify, found]
  by_cases same : target = position
  · exact congrArg some ((if_pos same).trans fixed)
  · exact congrArg some (if_neg same)

/-- Reading a list after one more element was pushed. -/
theorem getElem?_concat_cases {items : List α} {pushed item : α} {position : Nat}
    (found : (items ++ [pushed])[position]? = some item) :
    items[position]? = some item ∨ (position = items.length ∧ item = pushed) := by
  rcases Nat.lt_or_ge position items.length with inside | outside
  · rw [List.getElem?_append_left inside] at found
    exact Or.inl found
  · rw [List.getElem?_append_right outside] at found
    rcases List.getElem?_eq_some_iff.mp found with ⟨bound, equal⟩
    have last : position - items.length = 0 := Nat.lt_one_iff.mp bound
    refine Or.inr ⟨Nat.le_antisymm (Nat.sub_eq_zero_iff_le.mp last) outside, ?_⟩
    rw [<- equal]
    exact List.getElem_singleton _

theorem getElem?_concat_of_some {items : List α} {item : α} {position : Nat}
    (found : items[position]? = some item) (pushed : α) : (items ++ [pushed])[position]? = some item :=
  (List.getElem?_append_left (List.getElem?_eq_some_iff.mp found).1).trans found

/-- Replacing one item changes a sum of weights by the difference of two. -/
theorem sum_map_set (weight : α -> Nat) {items : List α} {item : α} {position : Nat}
    (found : items[position]? = some item) (changed : α) :
    ((items.set position changed).map weight).sum + weight item = (items.map weight).sum + weight changed := by
  induction items generalizing position with
  | nil => cases found
  | cons first rest inductionHypothesis =>
      cases position with
      | zero =>
          cases found
          simp only [List.set_cons_zero, List.map_cons, List.sum_cons]
          omega
      | succ position =>
          have later := inductionHypothesis found
          simp only [List.set_cons_succ, List.map_cons, List.sum_cons]
          omega

theorem map_modify_of_same {β : Type v} {weight : α -> β} {change : α -> α}
    (same : forall item, weight (change item) = weight item) (items : List α) (position : Nat) :
    (items.modify position change).map weight = items.map weight := by
  apply List.ext_getElem?
  intro index
  rw [List.getElem?_map, List.getElem?_map, List.getElem?_modify]
  cases items[index]? with
  | none => rfl
  | some item =>
      by_cases here : position = index
      · exact congrArg some ((congrArg weight (if_pos here)).trans (same item))
      · exact congrArg some (congrArg weight (if_neg here))

theorem mem_of_mem_split {items before after : List α} {removed item : α}
    (split : items = before ++ removed :: after) (member : item ∈ before ++ after) : item ∈ items := by
  rw [split, List.mem_append, List.mem_cons]
  exact (List.mem_append.mp member).imp_right Or.inr

/-- Every item is the one that is erased, or still there afterwards. -/
theorem mem_eraseIdx_or {items : List α} {position : Nat} {erased item : α} (found : items[position]? = some erased)
    (member : item ∈ items) : item = erased ∨ item ∈ items.eraseIdx position := by
  rcases List.getElem?_eq_some_iff.mp found with ⟨inside, same⟩
  have perm := List.getElem_cons_eraseIdx_perm inside
  rw [same] at perm
  exact List.mem_cons.mp (perm.mem_iff.mpr member)

/-- Find the first element that passes the test, and remove it by its position. -/
def removeFirst (test : α -> Bool) (items : List α) : Option (α × List α) :=
  (items.findIdx? test).bind fun index => items[index]?.map fun item => (item, items.eraseIdx index)

theorem removeFirst_cons (test : α -> Bool) (item : α) (rest : List α) :
    removeFirst test (item :: rest) =
      if test item then some (item, rest)
      else (removeFirst test rest).map fun found => (found.1, item :: found.2) := by
  rw [removeFirst, List.findIdx?_cons]
  cases passes : test item with
  | true => rfl
  | false =>
      rw [if_neg Bool.false_ne_true, if_neg Bool.false_ne_true, removeFirst]
      cases rest.findIdx? test with
      | none => rfl
      | some index =>
          change (rest[index]?.map fun found => (found, item :: rest.eraseIdx index)) =
            (rest[index]?.map fun found => (found, rest.eraseIdx index)).map fun found => (found.1, item :: found.2)
          rw [Option.map_map]
          rfl

/-- The elements before the removed one do not pass the test. -/
theorem removeFirst_eq_some {test : α -> Bool} {items : List α} {found : α} {rest : List α} :
    removeFirst test items = some (found, rest) <->
      Exists fun before => Exists fun after => items = before ++ found :: after ∧
        rest = before ++ after ∧ test found = true ∧ forall item, item ∈ before -> test item = false := by
  induction items generalizing rest with
  | nil =>
      constructor
      · intro impossible
        cases impossible
      · rintro ⟨before, after, split, _⟩
        cases before <;> cases split
  | cons first tail ih =>
      rw [removeFirst_cons]
      cases passes : test first with
      | true =>
          rw [if_pos rfl]
          constructor
          · intro equal
            cases equal
            exact ⟨[], tail, rfl, rfl, passes, fun _ member => absurd member List.not_mem_nil⟩
          · rintro ⟨before, after, split, restEq, _, failing⟩
            cases before with
            | nil =>
                cases split
                rw [restEq, List.nil_append]
            | cons other before =>
                cases split
                rw [failing first List.mem_cons_self] at passes
                cases passes
      | false =>
          rw [if_neg Bool.false_ne_true, Option.map_eq_some_iff]
          constructor
          · rintro ⟨⟨item, remaining⟩, later, equal⟩
            cases equal
            rcases ih.mp later with ⟨before, after, split, restEq, foundPasses, failing⟩
            refine ⟨first :: before, after, by rw [split]; rfl, by rw [restEq]; rfl, foundPasses, ?_⟩
            intro item member
            rcases List.mem_cons.mp member with here | there
            · exact here ▸ passes
            · exact failing item there
          · rintro ⟨before, after, split, restEq, foundPasses, failing⟩
            cases before with
            | nil =>
                cases split
                rw [passes] at foundPasses
                cases foundPasses
            | cons other before =>
                cases split
                refine ⟨(found, before ++ after), ?_, by rw [restEq]; rfl⟩
                exact ih.mpr ⟨before, after, rfl, rfl, foundPasses,
                  fun item member => failing item (List.mem_cons_of_mem _ member)⟩

theorem removeFirst_eq_none {test : α -> Bool} {items : List α} :
    removeFirst test items = none <-> forall item, item ∈ items -> test item = false := by
  induction items with
  | nil => exact ⟨fun _ _ member => absurd member List.not_mem_nil, fun _ => rfl⟩
  | cons first tail ih =>
      rw [removeFirst_cons, List.forall_mem_cons]
      cases passes : test first with
      | true =>
          rw [if_pos rfl]
          constructor
          · intro impossible
            cases impossible
          · rintro ⟨impossible, _⟩
            cases impossible
      | false =>
          rw [if_neg Bool.false_ne_true, Option.map_eq_none_iff, ih]
          exact ⟨fun all => ⟨rfl, all⟩, fun both => both.2⟩

/-- The removed element is the one a search finds. -/
theorem removeFirst_of_find? {test : α -> Bool} {items : List α} {found : α}
    (first : items.find? test = some found) :
    Exists fun before => Exists fun after => items = before ++ found :: after ∧
      removeFirst test items = some (found, before ++ after) := by
  rcases List.find?_eq_some_iff_append.mp first with ⟨passes, before, after, split, failing⟩
  refine ⟨before, after, split, removeFirst_eq_some.mpr ⟨before, after, split, rfl, passes, ?_⟩⟩
  exact fun item member => Bool.not_eq_true' _ |>.mp (failing item member)

/-- Removing by position removes the first occurrence of what a search finds. -/
theorem removeFirst_eq_find? [DecidableEq α] (test : α -> Bool) (items : List α) :
    removeFirst test items = (items.find? test).map fun found => (found, items.erase found) := by
  cases search : items.find? test with
  | none =>
      rw [Option.map_none, removeFirst_eq_none]
      exact fun item member => Bool.eq_false_iff.mpr (List.find?_eq_none.mp search item member)
  | some found =>
      rcases removeFirst_of_find? search with ⟨before, after, split, removed⟩
      rcases removeFirst_eq_some.mp removed with ⟨front, back, sameSplit, sameRest, passes, failing⟩
      have absent : found ∉ front := by
        intro member
        rw [failing found member] at passes
        cases passes
      rw [removed, Option.map_some, sameRest, sameSplit, List.erase_append_right _ absent, List.erase_cons_head]

/-- Where keys are unique, filtering one of them out removes its element. -/
theorem filter_key_ne {β : Type u} [DecidableEq β] {key : α -> β} {before after : List α} {item : α}
    (unique : ((before ++ item :: after).map key).Nodup) :
    ((before ++ item :: after).filter fun other => key other != key item) = before ++ after := by
  rw [List.map_append, List.map_cons] at unique
  have apart := (List.nodup_cons.mp (List.perm_middle.nodup_iff.mp unique)).1
  have others : forall other, other ∈ before ++ after -> (key other != key item) = true := by
    intro other member
    refine bne_iff_ne.mpr fun same => apart ?_
    rw [<- List.map_append, <- same]
    exact List.mem_map_of_mem member
  rw [List.filter_append, List.filter_cons, if_neg (by simp), <- List.filter_append]
  exact List.filter_eq_self.mpr others

/-! ## Lists without repetitions -/

/-- A repeated element changes nothing, a new one is appended. -/
theorem eraseDups_concat [BEq α] [LawfulBEq α] (items : List α) (item : α) :
    (items ++ [item]).eraseDups =
      if items.contains item then items.eraseDups else items.eraseDups ++ [item] := by
  rw [List.eraseDups_append, List.removeAll, List.filter_cons]
  by_cases member : item ∈ items
  · simp [member]
  · simp [member, List.eraseDups_cons]

theorem nodup_eraseDups [BEq α] [LawfulBEq α] (items : List α) : items.eraseDups.Nodup := by
  induction items using List.reverseRecOn with
  | nil => exact List.nodup_nil
  | append_singleton items item ih =>
      rw [eraseDups_concat]
      cases present : items.contains item with
      | true => exact ih
      | false =>
          have absent : item ∉ items.eraseDups := by
            rw [List.mem_eraseDups, <- List.contains_iff_mem, present]
            exact Bool.false_ne_true
          have front : (item :: items.eraseDups).Nodup := List.nodup_cons.mpr ⟨absent, ih⟩
          exact (List.perm_append_singleton item _).nodup_iff.mpr front

/-- Consecutive chunks of one size.  What is left over at the end is ignored. -/
def chunksExact (size : Nat) (items : List α) : List (List α) :=
  (List.range (items.length / size)).map fun index => (items.drop (index * size)).take size

theorem chunksExact_append {size : Nat} (positive : 0 < size) {chunk : List α}
    (exact' : chunk.length = size) (rest : List α) :
    chunksExact size (chunk ++ rest) = chunk :: chunksExact size rest := by
  have count : (chunk ++ rest).length / size = rest.length / size + 1 := by
    rw [List.length_append, exact', Nat.add_div_left _ positive]
  rw [chunksExact, count, List.range_succ_eq_map, List.map_cons, List.map_map]
  refine congrArg₂ List.cons ?_ ?_
  · rw [Nat.zero_mul, List.drop_zero, List.take_left' exact']
  · rw [chunksExact]
    apply List.map_congr_left
    intro index _
    have skip : (index + 1) * size = chunk.length + index * size := by
      rw [exact', Nat.add_mul, Nat.one_mul, Nat.add_comm]
    change ((chunk ++ rest).drop ((index + 1) * size)).take size = _
    rw [skip, List.drop_length_add_append]

/-- Cutting a concatenation of chunks restores them. -/
theorem chunksExact_flatten {size : Nat} (positive : 0 < size) {chunks : List (List α)}
    (sized : forall chunk, chunk ∈ chunks -> chunk.length = size) :
    chunksExact size chunks.flatten = chunks := by
  induction chunks with
  | nil => rw [List.flatten_nil, chunksExact, List.length_nil, Nat.zero_div, List.range_zero, List.map_nil]
  | cons chunk rest ih =>
      rw [List.flatten_cons, chunksExact_append positive (sized chunk List.mem_cons_self),
        ih fun other member => sized other (List.mem_cons_of_mem _ member)]

theorem length_of_mem_chunksExact {size : Nat} {items chunk : List α} (member : chunk ∈ chunksExact size items) :
    chunk.length = size := by
  rcases List.mem_map.mp member with ⟨index, inside, rfl⟩
  have whole : (index + 1) * size ≤ items.length :=
    Nat.le_trans (Nat.mul_le_mul_right size (List.mem_range.mp inside)) (Nat.div_mul_le_self _ _)
  rw [Nat.succ_mul] at whole
  rw [List.length_take, List.length_drop, Nat.min_eq_left (by omega)]

/-- The longest front whose length is a multiple of the size. -/
structure LongestWhole (size : Nat) (items kept : List α) : Prop where
  front : kept <+: items
  whole : size ∣ kept.length
  longest : forall other, other <+: items -> size ∣ other.length -> other.length ≤ kept.length

/-- The chunks hold everything but an incomplete chunk at the end. -/
theorem longestWhole_flatten_chunksExact {size : Nat} (positive : 0 < size) (items : List α) :
    LongestWhole size items (chunksExact size items).flatten := by
  have taken : forall count, ((List.range count).map fun index => (items.drop (index * size)).take size).flatten =
      items.take (count * size) := by
    intro count
    induction count with
    | zero => rw [List.range_zero, List.map_nil, List.flatten_nil, Nat.zero_mul, List.take_zero]
    | succ count ih =>
        rw [List.range_succ, List.map_append, List.flatten_append, ih, List.map_singleton, List.flatten_singleton,
          Nat.succ_mul, List.take_add]
  have length : (chunksExact size items).flatten.length = items.length / size * size := by
    rw [chunksExact, taken, List.length_take, Nat.min_eq_left (Nat.div_mul_le_self _ _)]
  refine ⟨?_, ?_, ?_⟩
  · rw [chunksExact, taken]
    exact List.take_prefix _ _
  · rw [length]
    exact Nat.dvd_mul_left _ _
  · intro other front whole
    rcases whole with ⟨count, counted⟩
    have fits : count ≤ items.length / size := by
      rw [Nat.le_div_iff_mul_le positive, Nat.mul_comm, <- counted]
      exact front.length_le
    rw [length, counted, Nat.mul_comm]
    exact Nat.mul_le_mul_right size fits

/-- Chunks of one size add up. -/
theorem length_flatten_of_sized {size : Nat} {chunks : List (List α)}
    (sized : forall chunk, chunk ∈ chunks -> chunk.length = size) :
    chunks.flatten.length = size * chunks.length := by
  induction chunks with
  | nil => rfl
  | cons chunk rest ih =>
      rw [List.flatten_cons, List.length_append, sized chunk List.mem_cons_self,
        ih fun other member => sized other (List.mem_cons_of_mem _ member), List.length_cons, Nat.mul_succ,
        Nat.add_comm]

end VecOps
