import DhtExplorer.Library.Crc32c
import DhtExplorer.Library.VecOps
import DhtExplorer.Search

namespace DhtExplorer

/-!
# What holds throughout a search

The nodes that are queried are the valid ones that are seen, each of them once.
Every reported node has its id seen, or was left out because of closer ones.  A
node that was queried has a task, has answered, or is ignored.  These facts hold
in every state of every run, so at the end of a run, when no task is left, they
say which nodes the result consists of.

Every finished task starts tasks for ids that were not seen before.  There are
finitely many ids, so the loop ends.
-/

/-- The limit position of the loop. -/
def SEEN_LIMIT : Nat := 16

theorem seenLimit_eq : (K_SIZE * 2).toNat = SEEN_LIMIT := rfl

/-- No more ids than there are numbers of 160 bits. -/
theorem U160.length_le_of_nodup {ids : List U160} (nodup : ids.Nodup) : ids.length ≤ 2 ^ 160 := by
  have inside : ids.map U160.toNat ⊆ List.range (2 ^ 160) := by
    intro number member
    rcases List.mem_map.mp member with ⟨id, _, rfl⟩
    exact List.mem_range.mpr id.toNat_lt
  have bound := (List.subperm_of_subset (nodup.map U160.toNat_injective) inside).length_le
  rwa [List.length_map, List.length_range] at bound

namespace Search

variable {config : SearchConfig} {search next : Search config.target} {found : NodeInfo}

/-- Everything the loop can do with one reported node. -/
inductive Considered (config : SearchConfig) (search : Search config.target) (found : NodeInfo) :
    Search config.target -> Prop where
  | pruned (far : closeEnough config search.seen found = false) :
      Considered config search found { search with reported := search.reported ++ [found] }
  | passed (close : closeEnough config search.seen found = true)
      (skipped : (search.seen.insert found).2 = false ∨ config.valid found = false) :
      Considered config search found
        { search with reported := search.reported ++ [found], seen := (search.seen.insert found).1 }
  | opened (close : closeEnough config search.seen found = true) (taken : (search.seen.insert found).2 = true)
      (valid : config.valid found = true) :
      Considered config search found
        { search with
          reported := search.reported ++ [found]
          seen := (search.seen.insert found).1
          tasks := search.tasks ++ [.sendFind found]
          queried := search.queried ++ [found] }

theorem considered (config : SearchConfig) (search : Search config.target) (found : NodeInfo) :
    Considered config search found (consider config search found) := by
  change Considered config search found
    (if closeEnough config search.seen found then
      if (search.seen.insert found).2 && config.valid found then _ else _
    else _)
  cases close : closeEnough config search.seen found with
  | false => exact .pruned close
  | true =>
      rw [if_pos rfl]
      cases taken : (search.seen.insert found).2 with
      | false => exact .passed close (Or.inl taken)
      | true =>
          cases valid : config.valid found with
          | false => exact .passed close (Or.inr valid)
          | true => exact .opened close taken valid

/-- A node that is not close enough has the limit of closer nodes in front of it. -/
theorem le_below_of_far {seen : SeenSet config.target} (far : closeEnough config seen found = false) :
    SEEN_LIMIT ≤ seen.below (config.target.distance found.id) := by
  unfold closeEnough at far
  rw [seenLimit_eq] at far
  cases limit : seen.items[SEEN_LIMIT]? with
  | none =>
      rw [limit] at far
      cases far
  | some close =>
      rw [limit] at far
      have notLess := of_decide_eq_false far
      exact Nat.le_trans (OrderedSet.le_below_of_getElem? limit) (seen.below_mono (not_lt.mp notLess))

/-! ## The invariant -/

structure Sound (config : SearchConfig) (search : Search config.target) : Prop where
  seen_reported : forall node, node ∈ search.seen.items -> node ∈ search.reported
  queried_iff : forall node, node ∈ search.queried <-> node ∈ search.seen.items ∧ config.valid node = true
  queried_nodup : search.queried.Nodup
  left_out : forall node, node ∈ search.reported ->
    (Exists fun present => present ∈ search.seen.items ∧ present.id = node.id) ∨
      SEEN_LIMIT ≤ search.seen.below (config.target.distance node.id)
  waiting : forall node, node ∈ search.queried ->
    SearchTask.sendFind node ∈ search.tasks ∨ node ∈ search.answered ∨ node ∈ search.ignore
  tasks_queried : forall node, SearchTask.sendFind node ∈ search.tasks -> node ∈ search.queried
  answered_queried : forall node, node ∈ search.answered -> node ∈ search.queried
  ignore_queried : forall node, node ∈ search.ignore -> node ∈ search.queried

theorem sound_start (config : SearchConfig) (nodes : List NodeInfo) : Sound config (start config.target nodes) where
  seen_reported := fun _ member => absurd member List.not_mem_nil
  queried_iff := fun _ => ⟨fun member => absurd member List.not_mem_nil, fun both => absurd both.1 List.not_mem_nil⟩
  queried_nodup := List.nodup_nil
  left_out := fun _ member => absurd member List.not_mem_nil
  waiting := fun _ member => absurd member List.not_mem_nil
  tasks_queried := by
    intro node member
    cases List.mem_singleton.mp member
  answered_queried := fun _ member => absurd member List.not_mem_nil
  ignore_queried := fun _ member => absurd member (Finset.notMem_empty _)

/-- No id is queried twice. -/
theorem Sound.ids_nodup (sound : Sound config search) : (search.queried.map NodeInfo.id).Nodup := by
  apply sound.queried_nodup.map_on
  intro first firstMember second secondMember same
  refine search.seen.eq_of_key_eq ((sound.queried_iff first).mp firstMember).1
    ((sound.queried_iff second).mp secondMember).1 ?_
  rw [same]

theorem Sound.length_queried_le (sound : Sound config search) : search.queried.length ≤ 2 ^ 160 := by
  have bound := U160.length_le_of_nodup sound.ids_nodup
  rwa [List.length_map] at bound

/-- A larger seen set still leaves out with reason. -/
theorem left_out_insert {seen : SeenSet config.target} {found node : NodeInfo}
    (reason : (Exists fun present => present ∈ seen.items ∧ present.id = node.id) ∨
      SEEN_LIMIT ≤ seen.below (config.target.distance node.id)) :
    (Exists fun present => present ∈ (seen.insert found).1.items ∧ present.id = node.id) ∨
      SEEN_LIMIT ≤ (seen.insert found).1.below (config.target.distance node.id) := by
  rcases reason with ⟨present, member, same⟩ | many
  · exact Or.inl ⟨present, (seen.sublist_insert found).mem member, same⟩
  · exact Or.inr (Nat.le_trans many (seen.below_insert found _))

/-- Inserted or not, the id of the node is seen. -/
theorem id_seen_insert (seen : SeenSet config.target) (found : NodeInfo) :
    Exists fun present => present ∈ (seen.insert found).1.items ∧ present.id = found.id := by
  rcases seen.key_mem_insert found with ⟨present, member, same⟩
  exact ⟨present, member, config.target.distance_injective same⟩

/-- What was reported before, or is reported now, is in the seen set if it was taken. -/
theorem seen_reported_insert (reported : forall node, node ∈ search.seen.items -> node ∈ search.reported)
    (found : NodeInfo) :
    forall node, node ∈ (search.seen.insert found).1.items -> node ∈ search.reported ++ [found] := by
  intro node member
  rcases OrderedSet.mem_insert.mp member with before | ⟨rfl, _⟩
  · exact List.mem_append_left _ (reported node before)
  · exact List.mem_append_right _ List.mem_cons_self

/-- After an insertion, the node and those before it are seen or left out with reason. -/
theorem Sound.left_out_concat (sound : Sound config search) (found : NodeInfo) :
    forall node, node ∈ search.reported ++ [found] ->
      (Exists fun present => present ∈ (search.seen.insert found).1.items ∧ present.id = node.id) ∨
        SEEN_LIMIT ≤ (search.seen.insert found).1.below (config.target.distance node.id) := by
  intro node member
  rcases List.mem_append.mp member with before | here
  · exact left_out_insert (sound.left_out node before)
  · rw [List.mem_singleton.mp here]
    exact Or.inl (id_seen_insert _ _)

/-- A refused or invalid node does not change which valid nodes are seen. -/
theorem seen_valid_insert (skipped : (search.seen.insert found).2 = false ∨ config.valid found = false)
    {node : NodeInfo} (valid : config.valid node = true) :
    node ∈ (search.seen.insert found).1.items <-> node ∈ search.seen.items := by
  rw [OrderedSet.mem_insert]
  constructor
  · rintro (before | ⟨rfl, taken⟩)
    · exact before
    · rcases skipped with refused | invalid
      · rw [refused] at taken
        cases taken
      · rw [invalid] at valid
        cases valid
  · exact Or.inl

theorem Sound.consider (sound : Sound config search) (found : NodeInfo) :
    Sound config (Search.consider config search found) := by
  have step := considered config search found
  generalize Search.consider config search found = next at step
  cases step with
  | pruned far =>
      refine { sound with seen_reported := ?_, left_out := ?_ }
      · exact fun node member => List.mem_append_left _ (sound.seen_reported node member)
      · intro node member
        rcases List.mem_append.mp member with before | here
        · exact sound.left_out node before
        · rw [List.mem_singleton.mp here]
          exact Or.inr (le_below_of_far far)
  | passed close skipped =>
      refine { sound with
        seen_reported := seen_reported_insert sound.seen_reported found
        queried_iff := fun node => ?_
        left_out := sound.left_out_concat found }
      rw [sound.queried_iff node]
      exact and_congr_left fun valid => (seen_valid_insert skipped valid).symm
  | opened close taken valid =>
      have fresh : found ∉ search.queried := by
        intro member
        exact OrderedSet.insert_taken.mp taken found ((sound.queried_iff found).mp member).1 rfl
      refine ⟨seen_reported_insert sound.seen_reported found, ?_, ?_, sound.left_out_concat found, ?_, ?_, ?_, ?_⟩
      · intro node
        rw [List.mem_append, List.mem_singleton, sound.queried_iff node, OrderedSet.mem_insert]
        constructor
        · rintro (⟨seen, valid⟩ | rfl)
          · exact ⟨Or.inl seen, valid⟩
          · exact ⟨Or.inr ⟨rfl, taken⟩, valid⟩
        · rintro ⟨seen | ⟨same, _⟩, valid⟩
          · exact Or.inl ⟨seen, valid⟩
          · exact Or.inr same
      · exact List.nodup_append.mpr ⟨sound.queried_nodup, List.nodup_singleton _, by
          intro first member second same equal
          rw [List.mem_singleton] at same
          exact fresh (same ▸ equal ▸ member)⟩
      · intro node member
        rcases List.mem_append.mp member with before | here
        · exact (sound.waiting node before).imp_left (List.mem_append_left _)
        · rw [List.mem_singleton.mp here]
          exact Or.inl (List.mem_append_right _ List.mem_cons_self)
      · intro node member
        rcases List.mem_append.mp member with before | here
        · exact List.mem_append_left _ (sound.tasks_queried node before)
        · cases List.mem_singleton.mp here
          exact List.mem_append_right _ List.mem_cons_self
      · exact fun node member => List.mem_append_left _ (sound.answered_queried node member)
      · exact fun node member => List.mem_append_left _ (sound.ignore_queried node member)

theorem Sound.considerAll (sound : Sound config search) (nodes : List NodeInfo) :
    Sound config (nodes.foldl (Search.consider config) search) := by
  induction nodes generalizing search with
  | nil => exact sound
  | cons found rest ih => exact ih (sound.consider found)

/-! ## One completion -/

/-- The nodes that a result reports. -/
def reportedBy : OneResult -> List NodeInfo
  | .foundSome nodes => nodes
  | .removeOne _ => []
  | .peers _ nodes => nodes.getD []

/-- What a result does before its nodes are considered. -/
def settle {target : U160} (search : Search target) : OneResult -> Search target
  | .foundSome _ => search
  | .removeOne node => { search with ignore := insert node search.ignore }
  | .peers found _ => { search with peers := search.peers ∪ found.toFinset }

theorem handle_eq (result : OneResult) :
    handle config search result = (reportedBy result).foldl (Search.consider config) (settle search result) := by
  cases result <;> rfl

/-- The state between the end of a task and the nodes it reports. -/
def finish (config : SearchConfig) (search : Search config.target) (completion : Completion) (task : SearchTask) :
    Search config.target :=
  settle
    { search with
      tasks := search.tasks.eraseIdx completion.task
      answered := search.answered ++ answering task (config.result completion.outcome task) }
    (config.result completion.outcome task)

/-- A step ends one task and considers what it reports. -/
theorem step_eq_some {completion : Completion} (stepped : step config search completion = some next) :
    Exists fun task => search.tasks[completion.task]? = some task ∧
      next = (reportedBy (config.result completion.outcome task)).foldl (Search.consider config)
        (finish config search completion task) := by
  rcases Option.map_eq_some_iff.mp stepped with ⟨task, found, rfl⟩
  exact ⟨task, found, handle_eq _⟩

/-- Only the task of a node removes it. -/
theorem result_cases (config : SearchConfig) (outcome : Option Response) (task : SearchTask) :
    (Exists fun nodes => task = .start nodes ∧ config.result outcome task = .foundSome nodes) ∨
    (Exists fun node => task = .sendFind node ∧ config.result outcome task = .removeOne node) ∨
    (Exists fun node => task = .sendFind node ∧ answering task (config.result outcome task) = [node] ∧
      forall removed, config.result outcome task ≠ .removeOne removed) := by
  cases task with
  | start nodes => exact Or.inl ⟨nodes, rfl, rfl⟩
  | sendFind node =>
      cases result : config.result outcome (.sendFind node) with
      | foundSome nodes => exact Or.inr (Or.inr ⟨node, rfl, rfl, by simp⟩)
      | peers found nodes => exact Or.inr (Or.inr ⟨node, rfl, rfl, by simp⟩)
      | removeOne removed =>
          have own : removed = node := by
            change (config.sendFind node outcome).1 = _ at result
            unfold SearchConfig.sendFind at result
            cases outcome with
            | none => exact (OneResult.removeOne.inj result).symm
            | some r =>
                dsimp only at result
                split at result
                · cases result
                · split at result
                  · cases result
                  · exact (OneResult.removeOne.inj result).symm
                · exact (OneResult.removeOne.inj result).symm
          exact Or.inr (Or.inl ⟨node, rfl, congrArg _ own⟩)

variable {completion : Completion} {task : SearchTask}

/-- What a finished task leaves of the state is itself, without the task. -/
theorem finish_fields (config : SearchConfig) (search : Search config.target) (completion : Completion)
    (task : SearchTask) :
    (finish config search completion task).seen = search.seen ∧
      (finish config search completion task).reported = search.reported ∧
      (finish config search completion task).queried = search.queried ∧
      (finish config search completion task).tasks = search.tasks.eraseIdx completion.task ∧
      (finish config search completion task).answered =
        search.answered ++ answering task (config.result completion.outcome task) := by
  unfold finish
  cases config.result completion.outcome task <;> exact ⟨rfl, rfl, rfl, rfl, rfl⟩

/-- A removed node is ignored from then on, and no other. -/
theorem mem_finish_ignore {node : NodeInfo} : node ∈ (finish config search completion task).ignore <->
    node ∈ search.ignore ∨ config.result completion.outcome task = .removeOne node := by
  unfold finish
  cases config.result completion.outcome task with
  | foundSome nodes => simp [settle]
  | peers found nodes => simp [settle]
  | removeOne removed => simp [settle, or_comm, eq_comm]

/-- The task of a node, and no other, is an answer of the node or removes it. -/
theorem settles_iff (config : SearchConfig) (outcome : Option Response) (task : SearchTask) (node : NodeInfo) :
    node ∈ answering task (config.result outcome task) ∨ config.result outcome task = .removeOne node <->
      task = .sendFind node := by
  rcases result_cases config outcome task with
    ⟨nodes, rfl, start⟩ | ⟨other, rfl, removed⟩ | ⟨other, rfl, answers, never⟩
  · rw [start]
    simp [answering]
  · rw [removed]
    simp [answering]
  · rw [answers]
    simp [never node, eq_comm]

theorem mem_finish_settled {node : NodeInfo} :
    node ∈ (finish config search completion task).answered ∨ node ∈ (finish config search completion task).ignore <->
      (node ∈ search.answered ∨ node ∈ search.ignore) ∨ task = .sendFind node := by
  rw [(finish_fields config search completion task).2.2.2.2, List.mem_append, mem_finish_ignore,
    <- settles_iff config completion.outcome task node]
  exact or_or_or_comm

theorem Sound.finish (sound : Sound config search) (ended : search.tasks[completion.task]? = some task) :
    Sound config (Search.finish config search completion task) := by
  rcases finish_fields config search completion task with ⟨seen, reported, queried, tasks, _⟩
  have settledQueried : forall node, node ∈ (Search.finish config search completion task).answered ∨
      node ∈ (Search.finish config search completion task).ignore -> node ∈ search.queried := by
    intro node settled
    rcases mem_finish_settled.mp settled with (answered | ignored) | rfl
    · exact sound.answered_queried node answered
    · exact sound.ignore_queried node ignored
    · exact sound.tasks_queried node (List.mem_of_getElem? ended)
  constructor
  · rw [seen, reported]
    exact sound.seen_reported
  · rw [seen, queried]
    exact sound.queried_iff
  · rw [queried]
    exact sound.queried_nodup
  · rw [seen, reported]
    exact sound.left_out
  · rw [queried, tasks]
    intro node member
    rcases sound.waiting node member with waiting | settled
    · rcases VecOps.mem_eraseIdx_or ended waiting with same | still
      · exact Or.inr (mem_finish_settled.mpr (Or.inr same.symm))
      · exact Or.inl still
    · exact Or.inr (mem_finish_settled.mpr (Or.inl settled))
  · rw [tasks, queried]
    exact fun node member => sound.tasks_queried node (List.mem_of_mem_eraseIdx member)
  · rw [queried]
    exact fun node answered => settledQueried node (Or.inl answered)
  · rw [queried]
    exact fun node ignored => settledQueried node (Or.inr ignored)

theorem Sound.step (sound : Sound config search) (stepped : Search.step config search completion = some next) :
    Sound config next := by
  rcases step_eq_some stepped with ⟨task, ended, rfl⟩
  exact (sound.finish ended).considerAll _

theorem Sound.run {nodes : List NodeInfo} {completions : List Completion} {final : Search config.target}
    (ran : Search.run config nodes completions = some final) : Sound config final :=
  PartialRun.run_invariant (fun _ _ _ sound stepped => Sound.step sound stepped) (sound_start config nodes) ran

/-! ## The loop ends -/

/-- The tasks that are left, and the ids that may still get one. -/
def remaining {target : U160} (search : Search target) : Nat :=
  search.tasks.length + (2 ^ 160 - search.queried.length)

theorem remaining_consider (sound : Sound config search) (found : NodeInfo) :
    (Search.consider config search found).remaining ≤ search.remaining := by
  have bound := (sound.consider found).length_queried_le
  have step := considered config search found
  generalize Search.consider config search found = next at step bound
  cases step with
  | pruned far => exact Nat.le_refl _
  | passed close skipped => exact Nat.le_refl _
  | opened close taken valid =>
      simp only [List.length_append, List.length_singleton] at bound
      simp only [remaining, List.length_append, List.length_singleton]
      omega

theorem remaining_considerAll (sound : Sound config search) (nodes : List NodeInfo) :
    (nodes.foldl (Search.consider config) search).remaining ≤ search.remaining := by
  induction nodes generalizing search with
  | nil => exact Nat.le_refl _
  | cons found rest ih => exact Nat.le_trans (ih (sound.consider found)) (remaining_consider sound found)

theorem remaining_step (sound : Sound config search) (stepped : Search.step config search completion = some next) :
    next.remaining < search.remaining := by
  rcases step_eq_some stepped with ⟨task, ended, rfl⟩
  rcases finish_fields config search completion task with ⟨_, _, queried, tasks, _⟩
  have inside := (List.getElem?_eq_some_iff.mp ended).1
  have later := remaining_considerAll (sound.finish ended) (reportedBy (config.result completion.outcome task))
  have here : (Search.finish config search completion task).remaining < search.remaining := by
    rw [remaining, remaining, queried, tasks, List.length_eraseIdx_of_lt inside]
    omega
  exact Nat.lt_of_le_of_lt later here

/-- A search that has tasks left takes the result of any of them. -/
theorem step_of_task (config : SearchConfig) (search : Search config.target) (task : Nat)
    (inside : task < search.tasks.length) (outcome : Option Response) :
    (Search.step config search ⟨task, outcome⟩).isSome = true := by
  rw [Search.step, Option.isSome_map, List.getElem?_eq_getElem inside]
  rfl

end Search

/-- In every run of a search, whatever the network answers and in whatever order:
the loop comes to an end, every id is queried at most once, only valid nodes are
queried, and an id that was reported and is not seen has the limit of seen nodes
strictly closer to the target. -/
theorem search_safety (config : SearchConfig) (nodes : List NodeInfo) (completions : List Completion)
    (final : Search config.target) (ran : Search.run config nodes completions = some final) :
    completions.length ≤ 2 ^ 160 + 1 ∧
    (forall task, task < final.tasks.length -> forall outcome,
      (Search.step config final ⟨task, outcome⟩).isSome = true) ∧
    (final.queried.map NodeInfo.id).Nodup ∧
    (forall node, node ∈ final.queried -> config.valid node = true) ∧
    (forall node, node ∈ final.reported -> node.id ∉ final.seen.items.map NodeInfo.id ->
      SEEN_LIMIT ≤ final.seen.below (config.target.distance node.id)) := by
  have sound := Search.Sound.run ran
  have length := PartialRun.run_length_le (fun _ _ _ sound stepped => Search.Sound.step sound stepped)
    (fun _ _ _ sound stepped => Search.remaining_step sound stepped) (Search.sound_start config nodes) ran
  refine ⟨?_, fun task inside outcome => Search.step_of_task config final task inside outcome, sound.ids_nodup,
    fun node member => ((sound.queried_iff node).mp member).2, fun node member absent => ?_⟩
  · have start : (Search.start config.target nodes).remaining = 1 + 2 ^ 160 := rfl
    rw [start] at length
    omega
  · rcases sound.left_out node member with ⟨present, seen, same⟩ | many
    · exact absurd (List.mem_map.mpr ⟨present, seen, same⟩) absent
    · exact many

namespace SampleSearch

/-- A search does not use the key stream. -/
def config : SearchConfig where
  crypto := ⟨Crc32c.crc32c, fun _ _ _ => 0⟩
  chance := ⟨0, 0, 0, 0, .reservoir fun _ => 0⟩
  target := U160.min
  findPeers := false

def addr : SocketAddr := .v4 0x7c1f4b15 6881

/-- Valid for every number, and closer for smaller ones. -/
def node (number : Nat) : NodeInfo :=
  ⟨.new 0x5fbfbff10c5d6a4ec8a88e4c6ab4c28b (BitVec.ofNat 32 (8 * number + 1)), addr⟩

/-- This id does not belong to the address. -/
def invalid : NodeInfo := ⟨U160.min, addr⟩

def answer (kind : ResponseKind) : Option Response :=
  some ⟨kind, { origin := .remote (node 0), destination := .addr addr, requestorAddr := none, transactionId := [] }⟩

/-- The first node answers with a third one, which is silent. -/
def completions : List Completion := [⟨0, none⟩, ⟨0, answer (.kNearest [node 1] none)⟩, ⟨0, none⟩]

end SampleSearch

open SampleSearch in
theorem search_safety_of_two_queries : Exists fun final => Search.run config [node 0, invalid] completions = some final ∧
    (final.queried.map NodeInfo.id).Nodup := by
  have ends : (Search.run config [node 0, invalid] completions).isSome = true := by
    decide +kernel
  rcases Option.isSome_iff_exists.mp ends with ⟨final, ran⟩
  exact ⟨final, ran, (search_safety config _ completions final ran).2.2.1⟩

end DhtExplorer
