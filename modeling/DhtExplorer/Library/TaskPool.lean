import Mathlib.Algebra.BigOperators.Group.List.Basic
import Mathlib.Algebra.GroupWithZero.Nat
import Mathlib.Data.List.MinMax
import Mathlib.Data.List.Perm.Basic

/-!
# Pools of interleaved tasks

A task is a stack of frames, one for every call it is inside.  Only the top
frame of a task can move.  It may change the shared state, and it is replaced by
the frames that take its place: none when its call returns, several when it
calls again.  A frame that has to wait, for a lock for instance, does not move.

Invariants of a pool do not depend on which task a frame belongs to, so they are
stated about the list of all frames, up to its order.

Two rules say that a pool comes to its end.  Where calls are nested by rank, and a
frame only ever waits for one of its own rank or above that can move, some task can
move.  Where every move loses weight, the weight bounds every schedule.
-/

namespace TaskPool

universe u v

/-- The shared state and the stacks of all tasks, top frame first. -/
structure Pool (Shared : Type u) (Frame : Type v) where
  shared : Shared
  tasks : List (List Frame)
deriving DecidableEq, Repr

variable {Shared : Type u} {Frame : Type v}

namespace Pool

def frames (pool : Pool Shared Frame) : List Frame := pool.tasks.flatten

/-- Every call of every task has returned. -/
def Finished (pool : Pool Shared Frame) : Prop := pool.frames = []

instance [DecidableEq Frame] (pool : Pool Shared Frame) : Decidable pool.Finished :=
  inferInstanceAs (Decidable (pool.frames = []))

/-- Let one task move. -/
def step (advance : Shared -> List Frame -> Frame -> Option (Shared × List Frame))
    (pool : Pool Shared Frame) (task : Nat) : Option (Pool Shared Frame) :=
  match pool.tasks[task]? with
  | some (frame :: callers) =>
      (advance pool.shared pool.frames frame).map fun (shared, frames) =>
        { shared := shared, tasks := pool.tasks.set task (frames ++ callers) }
  | _ => none

/-- Replacing the top of one stack replaces one frame of the pool. -/
private theorem flatten_set_perm {tasks : List (List Frame)} {task : Nat} {frame : Frame}
    {callers : List Frame} (found : tasks[task]? = some (frame :: callers)) :
    Exists fun others => tasks.flatten.Perm (frame :: others) ∧
      forall replacement : List Frame,
        (tasks.set task (replacement ++ callers)).flatten.Perm (replacement ++ others) := by
  induction tasks generalizing task with
  | nil => cases found
  | cons first rest inductionHypothesis =>
      cases task with
      | zero =>
          cases found
          refine ⟨callers ++ rest.flatten, List.Perm.refl _, ?_⟩
          intro replacement
          rw [List.set_cons_zero, List.flatten_cons, List.append_assoc]
      | succ task =>
          rcases inductionHypothesis found with ⟨others, before, after⟩
          refine ⟨first ++ others, ?_, ?_⟩
          · rw [List.flatten_cons]
            exact (before.append_left first).trans List.perm_middle
          · intro replacement
            rw [List.set_cons_succ, List.flatten_cons]
            exact ((after replacement).append_left first).trans
              (List.perm_append_comm_assoc first replacement others)

/-- One frame moves and all others stay. -/
theorem step_eq_some {advance : Shared -> List Frame -> Frame -> Option (Shared × List Frame)}
    {pool next : Pool Shared Frame} {task : Nat} (stepped : step advance pool task = some next) :
    Exists fun frame => Exists fun callers => Exists fun others => Exists fun replacement =>
      pool.tasks[task]? = some (frame :: callers) ∧
      pool.frames.Perm (frame :: others) ∧
      advance pool.shared pool.frames frame = some (next.shared, replacement) ∧
      next.frames.Perm (replacement ++ others) := by
  unfold step at stepped
  split at stepped
  · rename_i frame callers found
    rcases Option.map_eq_some_iff.mp stepped with ⟨⟨shared, replacement⟩, advanced, rfl⟩
    rcases flatten_set_perm found with ⟨others, before, after⟩
    exact ⟨frame, callers, others, replacement, found, before, advanced, after replacement⟩
  · cases stepped

/-! ## Coming to an end -/

variable {advance : Shared -> List Frame -> Frame -> Option (Shared × List Frame)}
  {pool next : Pool Shared Frame} {task : Nat} {rank : Frame -> Nat}

/-- In every task, each call ranks above the call that it was made from. -/
def Nested (rank : Frame -> Nat) (pool : Pool Shared Frame) : Prop :=
  forall stack, stack ∈ pool.tasks -> stack.Pairwise fun upper lower => rank lower < rank upper

theorem Nested.kept (nested : pool.Nested rank) (stepped : step advance pool task = some next)
    (rises : forall frame shared replacement, frame ∈ pool.frames ->
      advance pool.shared pool.frames frame = some (shared, replacement) ->
      replacement.Pairwise (fun upper lower => rank lower < rank upper) ∧
        forall new, new ∈ replacement -> rank frame ≤ rank new) : next.Nested rank := by
  unfold Pool.step at stepped
  split at stepped
  · rename_i frame callers found
    rcases Option.map_eq_some_iff.mp stepped with ⟨⟨shared, replacement⟩, advanced, rfl⟩
    have member : frame :: callers ∈ pool.tasks := List.mem_of_getElem? found
    have inside : frame ∈ pool.frames := List.mem_flatten.mpr ⟨_, member, List.mem_cons_self⟩
    rcases rises frame shared replacement inside advanced with ⟨ordered, above⟩
    rcases List.pairwise_cons.mp (nested _ member) with ⟨below, rest⟩
    intro stack stackMember
    rcases List.mem_or_eq_of_mem_set stackMember with old | rfl
    · exact nested stack old
    · refine List.pairwise_append.mpr ⟨ordered, rest, ?_⟩
      intro new newMember caller callerMember
      exact Nat.lt_of_lt_of_le (below caller callerMember) (above new newMember)
  · cases stepped

/-- A frame that no other outranks is on top of its task. -/
theorem Nested.on_top (nested : pool.Nested rank) {frame : Frame} (member : frame ∈ pool.frames)
    (highest : forall other, other ∈ pool.frames -> rank other ≤ rank frame) :
    Exists fun task : Nat => Exists fun callers => pool.tasks[task]? = some (frame :: callers) := by
  rcases List.mem_flatten.mp member with ⟨stack, stackMember, inside⟩
  rcases List.getElem?_of_mem stackMember with ⟨task, found⟩
  cases stack with
  | nil => cases inside
  | cons top callers =>
      rcases List.mem_cons.mp inside with rfl | lower
      · exact ⟨task, callers, found⟩
      · have above := (List.pairwise_cons.mp (nested _ stackMember)).1 frame lower
        have topMember : top ∈ pool.frames := List.mem_flatten.mpr ⟨_, stackMember, List.mem_cons_self⟩
        exact absurd above (Nat.not_lt.mpr (highest top topMember))

theorem exists_step_of_top {frame : Frame} {callers : List Frame} (found : pool.tasks[task]? = some (frame :: callers))
    (moves : (advance pool.shared pool.frames frame).isSome = true) :
    Exists fun next => step advance pool task = some next := by
  rcases Option.isSome_iff_exists.mp moves with ⟨moved, advanced⟩
  rw [step, found]
  dsimp only
  rw [advanced]
  exact ⟨_, rfl⟩

/-- The lock order rule: where a frame waits only for one that ranks as high and can
move, some task can move.  The frame to look at is one that no other outranks. -/
theorem Nested.exists_step (nested : pool.Nested rank) (unfinished : ¬pool.Finished)
    (waits : forall frame, frame ∈ pool.frames -> (advance pool.shared pool.frames frame).isSome = true ∨
      Exists fun holder => holder ∈ pool.frames ∧ rank frame ≤ rank holder ∧
        (advance pool.shared pool.frames holder).isSome = true) :
    Exists fun task => Exists fun next => step advance pool task = some next := by
  cases largest : pool.frames.argmax rank with
  | none => exact absurd (List.argmax_eq_none.mp largest) unfinished
  | some frame =>
      have highest : forall other, other ∈ pool.frames -> rank other ≤ rank frame :=
        fun other member => List.le_of_mem_argmax member largest
      rcases waits frame (List.argmax_mem largest) with moves | ⟨holder, member, atLeast, moves⟩
      · rcases Nested.on_top nested (List.argmax_mem largest) highest with ⟨task, callers, found⟩
        exact ⟨task, exists_step_of_top found moves⟩
      · rcases Nested.on_top nested member fun other inside => (highest other inside).trans atLeast with
          ⟨task, callers, found⟩
        exact ⟨task, exists_step_of_top found moves⟩

/-- The weight of the shared state and of all frames. -/
def weigh (load : Shared -> Nat) (weight : Frame -> Nat) (pool : Pool Shared Frame) : Nat :=
  load pool.shared + (pool.frames.map weight).sum

theorem weigh_lt {load : Shared -> Nat} {weight : Frame -> Nat} (stepped : step advance pool task = some next)
    (lighter : forall frame shared replacement, frame ∈ pool.frames ->
      advance pool.shared pool.frames frame = some (shared, replacement) ->
      load shared + (replacement.map weight).sum < load pool.shared + weight frame) :
    next.weigh load weight < pool.weigh load weight := by
  rcases step_eq_some stepped with ⟨frame, callers, others, replacement, _, before, advanced, after⟩
  have less := lighter frame next.shared replacement (before.mem_iff.mpr List.mem_cons_self) advanced
  rw [weigh, weigh, (before.map weight).sum_eq, (after.map weight).sum_eq, List.map_append, List.sum_append,
    List.map_cons, List.sum_cons]
  omega

end Pool
end TaskPool
