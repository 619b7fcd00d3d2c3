import Mathlib.Data.List.Basic

/-!
# Stores of values under keys

What is used of a store: values can be read and replaced one key at a time, and the keys
can be listed and counted.  A program that keeps its data in a store is verified for
every store with these laws, and can be tried out on a store in memory.
-/

universe u v w

class KeyStore (Store : Type u) (Key : outParam (Type v)) (Value : outParam (Type w)) where
  empty : Store
  get : Store -> Key -> Option Value
  insert : Store -> Key -> Value -> Store
  keys : Store -> List Key
  size : Store -> Nat
  get_empty : forall key, get empty key = none
  get_insert_self : forall store key value, get (insert store key value) key = some value
  get_insert_of_ne : forall store key value other, other ≠ key -> get (insert store key value) other = get store other
  mem_keys : forall store key, key ∈ keys store <-> (get store key).isSome = true
  nodup_keys : forall store, (keys store).Nodup
  length_keys : forall store, (keys store).length = size store

namespace KeyStore

variable {Store : Type u} {Key : Type v} {Value : Type w} [KeyStore Store Key Value]

@[simp] theorem keys_empty : keys (empty : Store) = [] := by
  rw [List.eq_nil_iff_forall_not_mem]
  intro key member
  rw [mem_keys, get_empty] at member
  cases member

/-- Only the key that is written can be new. -/
theorem mem_keys_insert {store : Store} {key other : Key} {value : Value} :
    other ∈ keys (insert store key value) <-> other = key ∨ other ∈ keys store := by
  rw [mem_keys, mem_keys]
  by_cases same : other = key
  · subst same
    simp [get_insert_self]
  · rw [get_insert_of_ne store key value other same]
    simp [same]

instance {Key Value : Type} [Ord Key] [Std.TransOrd Key] [Std.LawfulEqOrd Key] [DecidableEq Key] :
    KeyStore (Std.TreeMap Key Value) Key Value where
  empty := ∅
  get := fun store key => store[key]?
  insert := fun store key value => store.insert key value
  keys := fun store => store.keys
  size := fun store => store.size
  get_empty := fun _ => Std.TreeMap.getElem?_emptyc
  get_insert_self := fun _ _ _ => Std.TreeMap.getElem?_insert_self
  get_insert_of_ne := by
    intro store key value other different
    rw [Std.TreeMap.getElem?_insert, if_neg]
    exact fun equal => different (Std.compare_eq_iff_eq.mp equal).symm
  mem_keys := by
    intro store key
    rw [Std.TreeMap.mem_keys, Std.TreeMap.mem_iff_isSome_getElem?]
  nodup_keys := fun _ => Std.TreeMap.nodup_keys
  length_keys := fun _ => Std.TreeMap.length_keys

end KeyStore
