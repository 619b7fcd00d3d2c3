import Mathlib.Data.List.Perm.Subperm
import DhtExplorer.Library.VecOps

/-!
# Bounded queues

A queue drops its oldest entry as soon as a push makes it as long as its limit.
So it never holds as many entries as the limit says: after any pushes it holds
the latest ones, one fewer than the limit.

Pushes may repeat an item, and every push takes a place.  The queue is therefore
compared with the items that were pushed most recently when each item counts
once.  It holds as many of these as its limit only if it holds every item that
was ever pushed.
-/

namespace BoundedQueue

universe u

variable {α : Type u}

/-- Append, then drop the front when the limit is reached. -/
def push (limit : Nat) (queue : List α) (item : α) : List α :=
  let pushed := queue ++ [item]
  if pushed.length = limit then pushed.drop 1 else pushed

/-- The last items, in the order in which they were pushed. -/
def latest (count : Nat) (items : List α) : List α := items.drop (items.length - count)

theorem length_latest (count : Nat) (items : List α) : (latest count items).length = min count items.length := by
  rw [latest, List.length_drop]
  omega

theorem push_latest (room : Nat) (items : List α) (item : α) :
    push (room + 1) (latest room items) item = latest room (items ++ [item]) := by
  have pushed : latest room items ++ [item] = (items ++ [item]).drop (items.length - room) :=
    (List.drop_append_of_le_length (Nat.sub_le _ _)).symm
  have lengthPushed : (latest room items ++ [item]).length = min room items.length + 1 := by
    rw [List.length_append, length_latest, List.length_singleton]
  have target : latest room (items ++ [item]) = (items ++ [item]).drop (items.length + 1 - room) := by
    rw [latest, List.length_append, List.length_singleton]
  change (if (latest room items ++ [item]).length = room + 1 then _ else _) = _
  rw [lengthPushed, target, pushed]
  by_cases full : room ≤ items.length
  · rw [if_pos (by omega), List.drop_drop]
    congr 1
    omega
  · rw [if_neg (by omega)]
    congr 1
    omega

/-- The queue after any pushes. -/
theorem foldl_push (room : Nat) (items : List α) : items.foldl (push (room + 1)) [] = latest room items := by
  induction items using List.reverseRecOn with
  | nil => exact List.drop_nil.symm
  | append_singleton items item ih => rw [List.foldl_concat, ih, push_latest]

/-! ## The most recent items -/

variable [BEq α] [LawfulBEq α]

/-- The items pushed most recently, each counted once, the newest first. -/
def recent (count : Nat) (items : List α) : List α := items.reverse.eraseDups.take count

theorem mem_of_mem_recent {count : Nat} {items : List α} {item : α} (member : item ∈ recent count items) :
    item ∈ items :=
  List.mem_reverse.mp (List.mem_eraseDups.mp (List.mem_of_mem_take member))

theorem length_eraseDups_le (items : List α) : items.eraseDups.length ≤ items.length :=
  (List.subperm_of_subset (VecOps.nodup_eraseDups items) fun _ member => List.mem_eraseDups.mp member).length_le

/-- The first item that is older than the latest ones, and not one of them, is
among the most recent ones. -/
theorem recent_not_latest {room : Nat} {items : List α} {old : α} (member : old ∈ items)
    (gone : old ∉ latest room items) :
    Exists fun item => item ∈ recent (room + 1) items ∧ item ∉ latest room items := by
  have split : items.reverse = (latest room items).reverse ++ (items.take (items.length - room)).reverse := by
    rw [<- List.reverse_append, latest, List.take_append_drop]
  have oldest : old ∈ (items.take (items.length - room)).reverse.removeAll (latest room items).reverse := by
    have earlier : old ∈ items.take (items.length - room) ++ latest room items := by
      rw [latest, List.take_append_drop]
      exact member
    rw [List.removeAll, List.mem_filter, List.mem_reverse]
    refine ⟨(List.mem_append.mp earlier).resolve_right gone, ?_⟩
    simpa using gone
  cases older : (items.take (items.length - room)).reverse.removeAll (latest room items).reverse with
  | nil =>
      rw [older] at oldest
      cases oldest
  | cons first rest =>
      have absent : first ∉ latest room items := by
        have kept : first ∈ (items.take (items.length - room)).reverse.removeAll (latest room items).reverse :=
          older ▸ List.mem_cons_self
        rw [List.removeAll, List.mem_filter] at kept
        simpa using kept.2
      have short : (latest room items).reverse.eraseDups.length ≤ room := by
        apply Nat.le_trans (length_eraseDups_le _)
        rw [List.length_reverse, length_latest]
        exact Nat.min_le_left _ _
      refine ⟨first, ?_, absent⟩
      rw [recent, split, List.eraseDups_append, older, List.eraseDups_cons, List.take_append]
      apply List.mem_append_right _
      rw [List.take_cons (by omega)]
      exact List.mem_cons_self

/-- One more recent item than the queue has room for is in the queue only if
every item is. -/
theorem recent_subset_latest_iff (room : Nat) (items : List α) :
    (forall item, item ∈ recent (room + 1) items -> item ∈ latest room items) <->
      forall item, item ∈ items -> item ∈ latest room items := by
  constructor
  · intro held old member
    by_contra gone
    rcases recent_not_latest member gone with ⟨item, among, missing⟩
    exact missing (held item among)
  · intro all item among
    exact all item (mem_of_mem_recent among)

end BoundedQueue
