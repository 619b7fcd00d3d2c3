import Mathlib.Data.List.Nodup
import Mathlib.Data.List.Perm.Subperm

/-!
# Fair semaphores

A semaphore hands out a number of permits.  Who finds none left waits in line, and a
permit that comes back goes to the first in line.  So permits are granted in the order
of the requests, none is idle while somebody waits, and none is lost.

How a semaphore keeps its line is its own affair.  What is used of it are its operations
and the laws about what they change, as far as it can be seen from outside.
-/

universe u v

/-- A semaphore as it is seen from outside: how many permits are free, who waits in line,
and who holds a permit. -/
class FairSemaphore (Sem : Type u) (α : outParam (Type v)) where
  new : Nat -> Sem
  /-- Take a permit or a place in the line. -/
  acquire : Sem -> α -> Sem
  /-- Give a permit back. -/
  release : Sem -> α -> Option Sem
  permits : Sem -> Nat
  waiting : Sem -> List α
  holding : Sem -> List α
  new_spec : forall total, permits (new total) = total ∧ waiting (new total) = [] ∧ holding (new total) = []
  acquire_free : forall semaphore who, permits semaphore ≠ 0 -> waiting semaphore = [] ->
    permits (acquire semaphore who) + 1 = permits semaphore ∧ waiting (acquire semaphore who) = [] ∧
    (holding (acquire semaphore who)).Perm (who :: holding semaphore)
  acquire_full : forall semaphore who, permits semaphore = 0 ->
    permits (acquire semaphore who) = 0 ∧ waiting (acquire semaphore who) = waiting semaphore ++ [who] ∧
    (holding (acquire semaphore who)).Perm (holding semaphore)
  release_idle : forall semaphore who, who ∈ holding semaphore -> waiting semaphore = [] ->
    Exists fun next => release semaphore who = some next ∧ permits next = permits semaphore + 1 ∧
      waiting next = [] ∧ (holding semaphore).Perm (who :: holding next)
  release_next : forall semaphore who first rest, who ∈ holding semaphore -> waiting semaphore = first :: rest ->
    Exists fun next => release semaphore who = some next ∧ permits next = permits semaphore ∧
      waiting next = rest ∧ (first :: holding semaphore).Perm (who :: holding next)
  release_stranger : forall semaphore who, who ∉ holding semaphore -> release semaphore who = none

namespace FairSemaphore

variable {Sem : Type u} {α : Type v} [FairSemaphore Sem α]

/-- What holds of a semaphore after some requests: those that do not wait have been
granted a permit, in the order of the requests. -/
structure Fair (total : Nat) (requests : List α) (semaphore : Sem) : Prop where
  balance : permits semaphore + (holding semaphore).length = total
  busy : waiting semaphore ≠ [] -> permits semaphore = 0
  inOrder : Exists fun granted => granted ++ waiting semaphore = requests ∧
    forall who, who ∈ holding semaphore -> who ∈ granted

variable {total : Nat} {requests : List α} {semaphore next : Sem} {who other : α}

theorem fair_new (total : Nat) : Fair total [] (new total : Sem) := by
  have spec : permits (new total : Sem) = total ∧ waiting (new total : Sem) = [] ∧ holding (new total : Sem) = [] :=
    new_spec total
  rcases spec with ⟨free, nobody, unheld⟩
  refine ⟨?_, fun waits => absurd nobody waits, [], ?_, fun who member => ?_⟩
  · rw [free, unheld]
    rfl
  · rw [nobody]
    rfl
  · rw [unheld] at member
    cases member

theorem Fair.length_holding_le (fair : Fair total requests semaphore) : (holding semaphore).length ≤ total := by
  have balance := fair.balance
  omega

/-- All permits are in use while somebody waits. -/
theorem Fair.length_holding (fair : Fair total requests semaphore) (waits : waiting semaphore ≠ []) :
    (holding semaphore).length = total := by
  have balance := fair.balance
  have none := fair.busy waits
  omega

/-- Who holds a permit has asked, and does not wait. -/
theorem Fair.asked_of_holding (fair : Fair total requests semaphore) (once : requests.Nodup)
    (holds : who ∈ holding semaphore) : who ∈ requests ∧ who ∉ waiting semaphore := by
  rcases fair.inOrder with ⟨granted, split, held⟩
  rw [<- split] at once ⊢
  have early := held who holds
  exact ⟨List.mem_append_left _ early, fun waits => (List.nodup_append.mp once).2.2 who early who waits rfl⟩

/-- Nobody overtakes one that waits. -/
theorem Fair.overtakes_nobody {order : α -> α -> Prop} (fair : Fair total requests semaphore)
    (sorted : requests.Pairwise order) (waits : who ∈ waiting semaphore) (asked : other ∈ requests)
    (notBefore : ¬order other who) : other ∈ waiting semaphore := by
  rcases fair.inOrder with ⟨granted, split, _⟩
  rw [<- split] at asked sorted
  rcases List.mem_append.mp asked with early | late
  · exact absurd ((List.pairwise_append.mp sorted).2.2 other early who waits) notBefore
  · exact late

/-! ## A request -/

/-- One who asks finds a permit, or joins the line. -/
theorem Fair.acquire_cases (fair : Fair total requests semaphore) (who : α) :
    (permits (acquire semaphore who) + 1 = permits semaphore ∧ waiting semaphore = [] ∧
      waiting (acquire semaphore who) = [] ∧ (holding (acquire semaphore who)).Perm (who :: holding semaphore)) ∨
    (permits semaphore = 0 ∧ permits (acquire semaphore who) = 0 ∧
      waiting (acquire semaphore who) = waiting semaphore ++ [who] ∧
      (holding (acquire semaphore who)).Perm (holding semaphore)) := by
  by_cases free : permits semaphore = 0
  · exact Or.inr ⟨free, acquire_full semaphore who free⟩
  · have nobody : waiting semaphore = [] := by
      by_contra waits
      exact free (fair.busy waits)
    rcases acquire_free semaphore who free nobody with ⟨fewer, still, holders⟩
    exact Or.inl ⟨fewer, nobody, still, holders⟩

theorem Fair.acquire (fair : Fair total requests semaphore) (who : α) :
    Fair total (requests ++ [who]) (acquire semaphore who) := by
  have balance := fair.balance
  rcases fair.inOrder with ⟨granted, split, held⟩
  rcases fair.acquire_cases who with ⟨fewer, nobody, still, holders⟩ | ⟨free, full, longer, holders⟩
  · refine ⟨?_, fun waits => absurd still waits, granted ++ [who], ?_, fun other member => ?_⟩
    · rw [holders.length_eq, List.length_cons]
      omega
    · rw [still, <- split, nobody, List.append_nil, List.append_nil]
    · rcases List.mem_cons.mp (holders.mem_iff.mp member) with rfl | old
      · exact List.mem_append_right _ List.mem_cons_self
      · exact List.mem_append_left _ (held other old)
  · refine ⟨?_, fun _ => full, granted, ?_, fun other member => held other (holders.mem_iff.mp member)⟩
    · rw [holders.length_eq]
      omega
    · rw [longer, <- split, List.append_assoc]

/-- Who holds a permit keeps it until it gives it back itself. -/
theorem Fair.holding_acquire (fair : Fair total requests semaphore) (who : α) (holds : other ∈ holding semaphore) :
    other ∈ holding (FairSemaphore.acquire semaphore who) := by
  rcases fair.acquire_cases who with ⟨_, _, _, holders⟩ | ⟨_, _, _, holders⟩
  · exact holders.mem_iff.mpr (List.mem_cons_of_mem who holds)
  · exact holders.mem_iff.mpr holds

theorem Fair.waiting_acquire (fair : Fair total requests semaphore) (who : α) (waits : other ∈ waiting semaphore) :
    other ∈ waiting (FairSemaphore.acquire semaphore who) := by
  rcases fair.acquire_cases who with ⟨_, nobody, _, _⟩ | ⟨_, _, longer, _⟩
  · rw [nobody] at waits
    cases waits
  · exact longer ▸ List.mem_append_left _ waits

theorem Fair.waited_acquire (fair : Fair total requests semaphore) (who : α)
    (waits : other ∈ waiting (FairSemaphore.acquire semaphore who)) : other ∈ waiting semaphore ∨ other = who := by
  rcases fair.acquire_cases who with ⟨_, _, still, _⟩ | ⟨_, _, longer, _⟩
  · rw [still] at waits
    cases waits
  · exact (List.mem_append.mp (longer ▸ waits)).imp_right List.mem_singleton.mp

/-- Who asks waits or holds a permit. -/
theorem Fair.takes_acquire (fair : Fair total requests semaphore) (who : α) :
    who ∈ waiting (FairSemaphore.acquire semaphore who) ∨ who ∈ holding (FairSemaphore.acquire semaphore who) := by
  rcases fair.acquire_cases who with ⟨_, _, _, holders⟩ | ⟨_, _, longer, _⟩
  · exact Or.inr (holders.mem_iff.mpr List.mem_cons_self)
  · exact Or.inl (longer ▸ List.mem_append_right _ List.mem_cons_self)

/-! ## A permit comes back -/

/-- A permit that comes back is free, or goes to the first in line. -/
theorem release_cases (released : release semaphore who = some next) : who ∈ holding semaphore ∧
    ((waiting semaphore = [] ∧ permits next = permits semaphore + 1 ∧ waiting next = [] ∧
        (holding semaphore).Perm (who :: holding next)) ∨
      Exists fun first => waiting semaphore = first :: waiting next ∧ permits next = permits semaphore ∧
        (first :: holding semaphore).Perm (who :: holding next)) := by
  have holds : who ∈ holding semaphore := by
    by_contra stranger
    rw [release_stranger semaphore who stranger] at released
    cases released
  refine ⟨holds, ?_⟩
  cases line : waiting semaphore with
  | nil =>
      rcases release_idle semaphore who holds line with ⟨same, releasedToo, rest⟩
      cases released.symm.trans releasedToo
      exact Or.inl ⟨rfl, rest⟩
  | cons first rest =>
      rcases release_next semaphore who first rest holds line with ⟨same, releasedToo, free, shorter, holders⟩
      cases released.symm.trans releasedToo
      exact Or.inr ⟨first, by rw [shorter], free, holders⟩

theorem Fair.release (fair : Fair total requests semaphore) (released : release semaphore who = some next) :
    Fair total requests next := by
  have balance := fair.balance
  rcases fair.inOrder with ⟨granted, split, held⟩
  rcases release_cases released with ⟨_, ⟨nobody, free, still, holders⟩ | ⟨first, line, free, holders⟩⟩
  · have lengths := holders.length_eq
    rw [List.length_cons] at lengths
    refine ⟨by omega, fun waits => absurd still waits, granted, ?_, fun other member => ?_⟩
    · rw [still, <- split, nobody]
    · exact held other (holders.mem_iff.mpr (List.mem_cons_of_mem who member))
  · have lengths := holders.length_eq
    rw [List.length_cons, List.length_cons] at lengths
    have full := fair.busy (by rw [line]; exact List.cons_ne_nil _ _)
    refine ⟨by omega, fun _ => by omega, granted ++ [first], ?_, fun other member => ?_⟩
    · rw [<- split, line, List.append_assoc]
      rfl
    · rcases List.mem_cons.mp (holders.mem_iff.mpr (List.mem_cons_of_mem who member)) with rfl | old
      · exact List.mem_append_right _ List.mem_cons_self
      · exact List.mem_append_left _ (held other old)

theorem holding_release (holds : other ∈ holding semaphore) (different : other ≠ who)
    (released : release semaphore who = some next) : other ∈ holding next := by
  rcases release_cases released with ⟨_, ⟨_, _, _, holders⟩ | ⟨first, _, _, holders⟩⟩
  · exact (List.mem_cons.mp (holders.mem_iff.mp holds)).resolve_left different
  · exact (List.mem_cons.mp (holders.mem_iff.mp (List.mem_cons_of_mem first holds))).resolve_left different

theorem waited_release (released : release semaphore who = some next) (waits : other ∈ waiting next) :
    other ∈ waiting semaphore := by
  rcases release_cases released with ⟨_, ⟨_, _, still, _⟩ | ⟨first, line, _, _⟩⟩
  · rw [still] at waits
    cases waits
  · rw [line]
    exact List.mem_cons_of_mem first waits

/-- Who waited still waits, or has got the permit, unless it gave one back itself. -/
theorem waiting_release (released : release semaphore who = some next) (waits : other ∈ waiting semaphore)
    (different : other ≠ who) : other ∈ waiting next ∨ other ∈ holding next := by
  rcases release_cases released with ⟨_, ⟨nobody, _, _, _⟩ | ⟨first, line, _, holders⟩⟩
  · rw [nobody] at waits
    cases waits
  · rw [line] at waits
    rcases List.mem_cons.mp waits with rfl | late
    · exact Or.inr ((List.mem_cons.mp (holders.mem_iff.mp List.mem_cons_self)).resolve_left different)
    · exact Or.inl late

/-- Somebody fewer waits for a permit or holds one. -/
theorem release_fewer (holds : who ∈ holding semaphore) :
    Exists fun next => release semaphore who = some next ∧
      (waiting next).length + (holding next).length < (waiting semaphore).length + (holding semaphore).length := by
  cases line : waiting semaphore with
  | nil =>
      rcases release_idle semaphore who holds line with ⟨next, released, _, still, holders⟩
      have lengths := holders.length_eq
      rw [List.length_cons] at lengths
      refine ⟨next, released, ?_⟩
      rw [still]
      omega
  | cons first rest =>
      rcases release_next semaphore who first rest holds line with ⟨next, released, _, shorter, holders⟩
      have lengths := holders.length_eq
      rw [List.length_cons, List.length_cons] at lengths
      refine ⟨next, released, ?_⟩
      rw [shorter, List.length_cons]
      omega

end FairSemaphore

/-! ## A semaphore with a list for its line -/

structure Semaphore (α : Type u) where
  permits : Nat
  waiting : List α
  holding : List α
deriving DecidableEq, Repr

namespace Semaphore

variable {α : Type u}

def acquire (self : Semaphore α) (who : α) : Semaphore α :=
  match self.permits with
  | 0 => { self with waiting := self.waiting ++ [who] }
  | permits + 1 => { self with permits := permits, holding := who :: self.holding }

def release [DecidableEq α] (self : Semaphore α) (who : α) : Option (Semaphore α) :=
  if who ∈ self.holding then
    match self.waiting with
    | [] => some { self with permits := self.permits + 1, holding := self.holding.erase who }
    | next :: rest => some { self with waiting := rest, holding := next :: self.holding.erase who }
  else none

instance [DecidableEq α] : FairSemaphore (Semaphore α) α where
  new := fun total => ⟨total, [], []⟩
  acquire := acquire
  release := release
  permits := permits
  waiting := waiting
  holding := holding
  new_spec := fun _ => ⟨rfl, rfl, rfl⟩
  acquire_free := by
    rintro ⟨total, line, holders⟩ who free nobody
    cases total with
    | zero => exact absurd rfl free
    | succ permits => exact ⟨rfl, nobody, List.Perm.refl _⟩
  acquire_full := by
    rintro ⟨total, line, holders⟩ who full
    cases full
    exact ⟨rfl, rfl, List.Perm.refl _⟩
  release_idle := by
    rintro ⟨total, line, holders⟩ who holds nobody
    cases nobody
    exact ⟨_, if_pos holds, rfl, rfl, List.perm_cons_erase holds⟩
  release_next := by
    rintro ⟨total, line, holders⟩ who first rest holds waits
    cases waits
    refine ⟨_, if_pos holds, rfl, rfl, ?_⟩
    exact ((List.perm_cons_erase holds).cons first).trans (List.Perm.swap who first _)
  release_stranger := fun _ _ stranger => if_neg stranger

end Semaphore
