import Mathlib.Data.Finset.Card
import Mathlib.Data.Finset.Union

/-!
# Sets with a bounded number of members in each class

The abstract state is a finite set.  Every element has a class, and an element
is admitted only while its class has room.  This is the eager reading of a
table that keeps one bounded bucket for each class: it says which elements are
kept, and nothing about how buckets are represented or when they are created.
-/

namespace CapacityTable

universe u v

variable {Element : Type u} {Class : Type v} [DecidableEq Element] [DecidableEq Class]

/-- The stored members of one class. -/
def members (classOf : Element -> Class) (stored : Finset Element) (key : Class) : Finset Element :=
  stored.filter fun element => classOf element = key

/-- Keep the element when it is new and its class has room. -/
def add (classOf : Element -> Class) (capacity : Nat) (stored : Finset Element)
    (element : Element) : Finset Element :=
  if element ∉ stored ∧ (members classOf stored (classOf element)).card < capacity then
    insert element stored
  else stored

/-- Delete the element and report whether it was there. -/
def remove (stored : Finset Element) (element : Element) : Finset Element × Bool :=
  (stored.erase element, decide (element ∈ stored))

variable {classOf : Element -> Class} {capacity : Nat} {stored : Finset Element} {element : Element}

theorem add_of_mem (member : element ∈ stored) : add classOf capacity stored element = stored :=
  if_neg fun admitted => admitted.1 member

theorem add_of_room (absent : element ∉ stored)
    (room : (members classOf stored (classOf element)).card < capacity) :
    add classOf capacity stored element = insert element stored :=
  if_pos ⟨absent, room⟩

theorem add_of_full (full : capacity ≤ (members classOf stored (classOf element)).card) :
    add classOf capacity stored element = stored :=
  if_neg fun admitted => absurd admitted.2 (Nat.not_lt.mpr full)

end CapacityTable
