import DhtExplorer.SweepQueue

namespace DhtExplorer

/-!
# The sweep comes to an end

A node is queued only if its id is new.  So a sweep that is told of finitely many ids
asks finitely many nodes, and each answer is followed by a few steps of the loop and
of the backfill that it may spawn.
-/

namespace Sweep

variable {crypto : Crypto} {chance : Chance} {self next : Sweep} {good : NodeInfo -> Prop} {ids : Finset U160}

/-! ## What the sweep is told -/

/-- Good nodes are reported by the asked ones, and found by the search of a backfill. -/
def Reports (crypto : Crypto) (chance : Chance) (good : NodeInfo -> Prop) (sweep : Sweep) : SweepAction -> Prop
  | .finish task sampling finding => forall node, sweep.tasks[task]? = some node ->
      forall reported, reported ∈ (queryOne node sampling finding).2.1 -> good reported
  | .loop => True
  | .backfill network => forall target nodes, sweep.backfillHandle = some (.searching target nodes) ->
      forall found, findNNodesStartingAt crypto chance target 255 nodes network = some found ->
        forall node, node ∈ found -> good node

/-- The nodes that the loop and the backfill are about to add are good. -/
structure Informed (good : NodeInfo -> Prop) (sweep : Sweep) : Prop where
  reported : forall target nodes, sweep.loop = .received target nodes -> forall node, node ∈ nodes -> good node
  found : forall target nodes, sweep.backfillHandle = some (.adding target nodes) -> forall node, node ∈ nodes ->
    good node

theorem handle_addToSendQueue (self : Sweep) (target : U160) (nodes : List NodeInfo) :
    (self.addToSendQueue target nodes).backfillHandle = self.backfillHandle := by
  unfold addToSendQueue
  induction nodes.filter (fun n => target < n.id) generalizing self with
  | nil => rfl
  | cons node rest ih =>
      refine (ih (self.offer node)).trans ?_
      by_cases known : node.id ∈ self.queried
      · rw [offer_known known]
      · rw [offer_new known]

/-- The loop leaves the backfill alone, or spawns it. -/
theorem handle_loopStep (stepped : self.loopStep = some next) :
    next.backfillHandle = self.backfillHandle ∨ Exists fun target => next.backfillHandle = some (.spawned target) := by
  unfold loopStep at stepped
  split at stepped
  · cases stepped
  · split at stepped
    · cases stepped
      exact Or.inl rfl
    · cases stepped
      exact Or.inl (handle_addToSendQueue self _ _)
  · split at stepped
    · cases stepped
      exact Or.inr ⟨_, rfl⟩
    · cases stepped
      exact Or.inl rfl
  · cases stepped
    refine Or.inl ?_
    unfold queryNext
    split <;> rfl

theorem Informed.step {action : SweepAction} (informed : Informed good self)
    (reports : Reports crypto chance good self action) (stepped : Sweep.step crypto chance self action = some next) :
    Informed good next := by
  cases action with
  | finish task sampling finding =>
      cases moved_finish stepped with
      | ended here found =>
          refine { informed with reported := fun target nodes received => ?_ }
          cases received
          exact reports _ found
  | loop =>
      constructor
      · intro target nodes received
        cases moved_loop stepped <;> cases received
      · intro target nodes adding
        rcases handle_loopStep stepped with same | ⟨other, spawned⟩
        · exact informed.found target nodes (same.symm.trans adding)
        · cases spawned.symm.trans adding
  | backfill network =>
      constructor
      · intro target nodes received
        cases moved_backfill stepped with
        | refilled here =>
            exact informed.reported target nodes ((sameTasks_addToSendQueue self _ _).loop.symm.trans received)
        | staged elsewhere handle => exact informed.reported target nodes received
      · intro target nodes adding
        change self.backfillStep crypto chance network = some next at stepped
        unfold backfillStep at stepped
        split at stepped
        · cases stepped
        · cases stepped
          cases adding
        · rename_i searchTarget start handle
          rcases Option.map_eq_some_iff.mp stepped with ⟨result, searched, rfl⟩
          cases adding
          exact reports _ _ handle _ searched
        · cases stepped
          cases adding
        · cases stepped
          cases adding
        · cases stepped

/-! ## What is left to do -/

/-- Whom the sweep may still ask or is asking. -/
def outstanding (ids : Finset U160) (self : Sweep) : Nat :=
  (ids \ self.queried).card + self.toSend.items.length + self.tasks.length

end Sweep

def LoopStage.rank : LoopStage -> Nat
  | .waiting => 0
  | .popping => 1
  | .looked _ _ => 6
  | .received _ _ => 7

def BackfillStage.rank : BackfillStage -> Nat
  | .spawned _ => 4
  | .searching _ _ => 3
  | .adding _ _ => 2
  | .leaving => 1
  | .finished => 0

theorem BackfillStage.rank_le (stage : BackfillStage) : stage.rank ≤ 4 := by
  cases stage <;> simp [rank]

namespace Sweep

variable {crypto : Crypto} {chance : Chance} {self next : Sweep} {ids : Finset U160}

def backfillRank (self : Sweep) : Nat :=
  match self.backfillHandle with
  | none => 0
  | some stage => stage.rank

/-- Every step makes this number smaller. -/
def remaining (ids : Finset U160) (self : Sweep) : Nat :=
  8 * self.outstanding ids + self.loop.rank + self.backfillRank

theorem backfillRank_le (self : Sweep) : self.backfillRank ≤ 4 := by
  unfold backfillRank
  split
  · exact Nat.zero_le 4
  · exact BackfillStage.rank_le _

theorem outstanding_offer {node : NodeInfo} (inside : node.id ∈ ids) (self : Sweep) :
    (self.offer node).outstanding ids ≤ self.outstanding ids := by
  by_cases known : node.id ∈ self.queried
  · rw [offer_known known]
  · have fewer : (ids \ insert node.id self.queried).card + 1 = (ids \ self.queried).card := by
      rw [Finset.sdiff_insert]
      exact Finset.card_erase_add_one (Finset.mem_sdiff.mpr ⟨inside, known⟩)
    have longer := self.toSend.length_insert_le node
    rw [offer_new known, outstanding, outstanding]
    dsimp only
    omega

theorem outstanding_addToSendQueue {nodes : List NodeInfo} (inside : forall node, node ∈ nodes -> node.id ∈ ids)
    (target : U160) (self : Sweep) : (self.addToSendQueue target nodes).outstanding ids ≤ self.outstanding ids := by
  unfold addToSendQueue
  have offered : forall node, node ∈ nodes.filter (fun n => target < n.id) -> node.id ∈ ids :=
    fun node member => inside node (List.mem_of_mem_filter member)
  generalize nodes.filter (fun n => target < n.id) = offers at offered
  induction offers generalizing self with
  | nil => exact le_refl _
  | cons node rest ih =>
      have later := ih (self.offer node) fun other member => offered other (List.mem_cons_of_mem _ member)
      exact later.trans (outstanding_offer (offered node List.mem_cons_self) self)

/-- A node moves from the queue to the tasks, unless the queue is empty. -/
theorem queryNext_eq (self : Sweep) : Exists fun toSend => Exists fun tasks =>
    self.queryNext = { self with toSend := toSend, tasks := tasks } ∧
      toSend.items.length + tasks.length = self.toSend.items.length + self.tasks.length := by
  unfold queryNext
  cases popped : self.toSend.popFirst with
  | none => exact ⟨self.toSend, self.tasks, rfl, rfl⟩
  | some pair =>
      rcases pair with ⟨node, toSend⟩
      refine ⟨toSend, self.tasks ++ [node], rfl, ?_⟩
      rw [OrderedSet.popFirst_eq_some popped, List.length_append, List.length_singleton, List.length_cons]
      omega

theorem outstanding_queryNext (self : Sweep) : self.queryNext.outstanding ids = self.outstanding ids := by
  rcases queryNext_eq self with ⟨toSend, tasks, same, lengths⟩
  rw [same, outstanding, outstanding]
  dsimp only
  omega

theorem rank_backfillStep {network : List Completion} (stepped : self.backfillStep crypto chance network = some next) :
    next.backfillRank + 1 = self.backfillRank := by
  unfold backfillStep at stepped
  split at stepped
  · cases stepped
  · rename_i target here
    cases stepped
    rw [backfillRank, backfillRank, here]
    rfl
  · rename_i target nodes here
    rcases Option.map_eq_some_iff.mp stepped with ⟨found, _, rfl⟩
    rw [backfillRank, backfillRank, here]
    rfl
  · rename_i target nodes here
    cases stepped
    rw [backfillRank, backfillRank, here]
    rfl
  · rename_i here
    cases stepped
    rw [backfillRank, backfillRank, here]
    rfl
  · cases stepped

/-- The step lemma. -/
theorem remaining_step {action : SweepAction} (informed : Informed (fun node => node.id ∈ ids) self)
    (stepped : step crypto chance self action = some next) :
    next.remaining ids < self.remaining ids ∧
      next.outstanding ids + next.asked.length ≤ self.outstanding ids + self.asked.length := by
  cases moved_step stepped with
  | ended here found =>
      have fewer := List.length_eraseIdx_add_one (List.getElem?_eq_some_iff.mp found).1
      simp only [remaining, outstanding, backfillRank, here, LoopStage.rank, List.length_append, List.length_singleton]
      omega
  | looked here =>
      simp only [remaining, outstanding, backfillRank, here, LoopStage.rank]
      omega
  | @added target nodes here =>
      have fewer := outstanding_addToSendQueue (informed.reported target nodes here) target self
      have asked := (sameTasks_addToSendQueue self target nodes).asked
      have handle := handle_addToSendQueue self target nodes
      change (8 * (self.addToSendQueue target nodes).outstanding ids + 1 + (self.addToSendQueue target nodes).backfillRank <
        8 * self.outstanding ids + self.loop.rank + self.backfillRank) ∧ (self.addToSendQueue target nodes).outstanding ids +
          (self.addToSendQueue target nodes).asked.length ≤ _
      rw [here, asked, backfillRank, handle, <- backfillRank, LoopStage.rank]
      omega
  | @decided target largeGap here handle =>
      have bound := backfillRank_le { self with backfillHandle := handle, loop := .popping }
      change (8 * self.outstanding ids + 1 + _ < 8 * self.outstanding ids + self.loop.rank + _) ∧
        self.outstanding ids + self.asked.length ≤ _
      rw [here, LoopStage.rank]
      omega
  | popped here =>
      have same : self.queryNext.outstanding ids = self.outstanding ids := outstanding_queryNext self
      have kept : self.queryNext.backfillRank = self.backfillRank ∧ self.queryNext.asked = self.asked := by
        rcases queryNext_eq self with ⟨toSend, tasks, equal, _⟩
        rw [equal]
        exact ⟨rfl, rfl⟩
      change (8 * self.queryNext.outstanding ids + 0 + self.queryNext.backfillRank <
        8 * self.outstanding ids + self.loop.rank + self.backfillRank) ∧
          self.queryNext.outstanding ids + self.queryNext.asked.length ≤ _
      rw [same, here, kept.1, kept.2, LoopStage.rank]
      omega
  | @refilled network target nodes here =>
      have fewer := outstanding_addToSendQueue (informed.found target nodes here) target self
      have tasks := sameTasks_addToSendQueue self target nodes
      have rank := rank_backfillStep stepped
      change (8 * (self.addToSendQueue target nodes).outstanding ids + (self.addToSendQueue target nodes).loop.rank + _ <
        8 * self.outstanding ids + self.loop.rank + self.backfillRank) ∧ (self.addToSendQueue target nodes).outstanding ids +
          (self.addToSendQueue target nodes).asked.length ≤ _
      rw [tasks.loop, tasks.asked]
      omega
  | staged elsewhere handle =>
      have rank := rank_backfillStep stepped
      change (8 * self.outstanding ids + self.loop.rank + _ < 8 * self.outstanding ids + self.loop.rank + self.backfillRank) ∧
        self.outstanding ids + self.asked.length ≤ _
      omega

/-- The sweep starts with the nodes of the two searches. -/
theorem outstanding_start (ids : Finset U160) (lowest highest : List NodeInfo) :
    (start lowest highest).outstanding ids ≤ ids.card + (lowest ++ highest).length := by
  have inserted : forall (nodes : List NodeInfo) (toSend : SendQueue),
      (nodes.foldl (fun toSend n => (toSend.insert n).1) toSend).items.length ≤ toSend.items.length + nodes.length := by
    intro nodes
    induction nodes with
    | nil => exact fun _ => le_refl _
    | cons node rest ih =>
        intro toSend
        have one := toSend.length_insert_le node
        have others := ih (toSend.insert node).1
        rw [List.foldl_cons, List.length_cons]
        omega
  have initially : (initial lowest highest).outstanding ids ≤ ids.card + (lowest ++ highest).length := by
    have fewer : (ids \ (initial lowest highest).queried).card ≤ ids.card := Finset.card_le_card Finset.sdiff_subset
    have items : (initial lowest highest).toSend.items.length ≤ 0 + (lowest ++ highest).length := inserted _ .empty
    have tasks : (initial lowest highest).tasks.length = 0 := rfl
    rw [outstanding]
    omega
  unfold start
  generalize 200 = travellers
  induction travellers with
  | zero => exact initially
  | succ count ih =>
      rw [Function.iterate_succ_apply', outstanding_queryNext]
      exact ih

/-- At the start no node was asked to the end, and neither the loop nor a backfill has
anything in hand. -/
theorem start_idle (lowest highest : List NodeInfo) :
    (start lowest highest).loop = .waiting ∧ (start lowest highest).backfillHandle = none ∧
      (start lowest highest).asked = [] := by
  unfold start
  generalize 200 = travellers
  induction travellers with
  | zero => exact ⟨rfl, rfl, rfl⟩
  | succ count ih =>
      rw [Function.iterate_succ_apply']
      rcases queryNext_eq (Nat.iterate queryNext count (initial lowest highest)) with ⟨toSend, tasks, same, _⟩
      rw [same]
      exact ih

theorem informed_start (good : NodeInfo -> Prop) (lowest highest : List NodeInfo) :
    Informed good (start lowest highest) where
  reported := fun target nodes received => by cases (start_idle lowest highest).1.symm.trans received
  found := fun target nodes adding => by cases (start_idle lowest highest).2.1.symm.trans adding

/-- While there are tasks or the loop has something in hand, the sweep goes on. -/
theorem exists_step (crypto : Crypto) (chance : Chance) (good : NodeInfo -> Prop) (self : Sweep)
    (unfinished : ¬self.Returned) :
    Exists fun action => Reports crypto chance good self action ∧ (step crypto chance self action).isSome = true := by
  cases stage : self.loop with
  | waiting =>
      have inside : 0 < self.tasks.length := List.length_pos_iff.mpr fun none => unfinished ⟨stage, none⟩
      refine ⟨.finish 0 none none, fun node _ reported member => absurd member List.not_mem_nil, ?_⟩
      change (self.finishStep 0 none none).isSome = true
      rw [finishStep, stage]
      dsimp only
      rw [Option.isSome_map, List.getElem?_eq_getElem inside]
      rfl
  | received target nodes =>
      refine ⟨.loop, trivial, ?_⟩
      change self.loopStep.isSome = true
      rw [loopStep, stage]
      dsimp only
      split <;> rfl
  | looked target largeGap =>
      refine ⟨.loop, trivial, ?_⟩
      change self.loopStep.isSome = true
      rw [loopStep, stage]
      dsimp only
      split <;> rfl
  | popping =>
      refine ⟨.loop, trivial, ?_⟩
      change self.loopStep.isSome = true
      rw [loopStep, stage]
      rfl

end Sweep

/-- A sweep that is told of finitely many ids, in whatever order the answers come and
the backfill works, asks at most as many nodes as there are ids and first nodes, takes
at most eight steps for each, and goes on until it has returned. -/
theorem sweep_ends (crypto : Crypto) (chance : Chance) (lowest highest : List NodeInfo) (ids : Finset U160)
    (actions : List SweepAction) (final : Sweep) (ran : Sweep.run crypto chance lowest highest actions = some final)
    (reports : PartialRun.Permitted (Sweep.step crypto chance) (Sweep.Reports crypto chance fun node => node.id ∈ ids)
      (Sweep.start lowest highest) actions) :
    final.tasks.length + final.asked.length ≤ ids.card + (lowest ++ highest).length ∧
      actions.length ≤ 8 * (ids.card + (lowest ++ highest).length) ∧
      (final.Returned ∨ Exists fun action => Sweep.Reports crypto chance (fun node => node.id ∈ ids) final action ∧
        (Sweep.step crypto chance final action).isSome = true) := by
  have informed := Sweep.informed_start (fun node => node.id ∈ ids) lowest highest
  have bound := Sweep.outstanding_start ids lowest highest
  rcases Sweep.start_idle lowest highest with ⟨waiting, noBackfill, noneAsked⟩
  have initially : (Sweep.start lowest highest).outstanding ids + (Sweep.start lowest highest).asked.length ≤
      ids.card + (lowest ++ highest).length := by
    rw [noneAsked, List.length_nil, Nat.add_zero]
    exact bound
  have steps := PartialRun.run_length_le_of_permitted
    (fun _ _ _ informed reports stepped => Sweep.Informed.step informed reports stepped)
    (fun _ _ _ informed _ stepped => (Sweep.remaining_step informed stepped).1) informed reports ran
  have asked := PartialRun.run_invariant_of_permitted
    (fun state action next (before : Sweep.Informed (fun node => node.id ∈ ids) state ∧
        state.outstanding ids + state.asked.length ≤ ids.card + (lowest ++ highest).length) reports stepped =>
      ⟨before.1.step reports stepped, (Sweep.remaining_step before.1 stepped).2.trans before.2⟩)
    ⟨informed, initially⟩ reports ran
  refine ⟨?_, ?_, ?_⟩
  · have tasks := asked.2
    rw [Sweep.outstanding] at tasks
    omega
  · rw [Sweep.remaining, Sweep.remaining, waiting, Sweep.backfillRank, Sweep.backfillRank, noBackfill] at steps
    dsimp only [LoopStage.rank] at steps
    omega
  · by_cases returned : final.Returned
    · exact Or.inl returned
    · exact Or.inr (Sweep.exists_step crypto chance _ final returned)

namespace SampleSweep

/-- The node names others, and samples its own id. -/
def sampled (node : NodeInfo) (nodes : List NodeInfo) : SweepAction :=
  .finish 0 (SampleSearch.answer (.samples nodes [node.id] 1 0)) none

/-- The lower node tells of the higher one, which tells of none. -/
def climb : List SweepAction :=
  [sampled (SampleSearch.node 0) [SampleSearch.node 1], .loop, .loop,
    sampled (SampleSearch.node 1) [], .loop, .loop, .loop]

theorem permitted_climb {permits : Sweep -> SweepAction -> Prop} (loop : forall sweep, permits sweep .loop)
    (lower : forall sweep, sweep.tasks = [SampleSearch.node 0] ->
      permits sweep (sampled (SampleSearch.node 0) [SampleSearch.node 1]))
    (upper : forall sweep, sweep.tasks = [SampleSearch.node 1] -> permits sweep (sampled (SampleSearch.node 1) [])) :
    PartialRun.Permitted (Sweep.step SampleSearch.config.crypto SampleSearch.config.chance) permits
      (Sweep.start [SampleSearch.node 0] []) climb := by
  have tasks : forall index, index < 7 ->
      (PartialRun.run (Sweep.step SampleSearch.config.crypto SampleSearch.config.chance)
        (Sweep.start [SampleSearch.node 0] []) (climb.take index)).map (fun sweep => sweep.tasks) =
      [[SampleSearch.node 0], [], [], [SampleSearch.node 1], [], [], []][index]? := by
    decide +kernel
  apply PartialRun.Permitted.of_at
  intro index action middle there reached
  have less : index < 7 := (List.getElem?_eq_some_iff.mp there).1
  have asking := tasks index less
  rw [reached, Option.map_some] at asking
  rcases index with _ | _ | _ | _ | _ | _ | _ | index
  · cases there
    exact lower middle (Option.some.inj asking)
  · cases there
    exact loop middle
  · cases there
    exact loop middle
  · cases there
    exact upper middle (Option.some.inj asking)
  · cases there
    exact loop middle
  · cases there
    exact loop middle
  · cases there
    exact loop middle
  · omega

theorem climb_ends : (Sweep.run SampleSearch.config.crypto SampleSearch.config.chance [SampleSearch.node 0] [] climb).map
    (fun final => (final.loop, final.tasks, final.toSend.items)) = some (.waiting, [], []) := by
  decide +kernel

end SampleSweep

open SampleSweep in
/-- The sweep is told of one id. -/
theorem sweep_ends_climb : Exists fun final =>
    Sweep.run SampleSearch.config.crypto SampleSearch.config.chance [SampleSearch.node 0] [] climb = some final ∧
    final.tasks.length + final.asked.length ≤ 2 ∧ climb.length ≤ 16 := by
  rcases Option.map_eq_some_iff.mp climb_ends with ⟨final, ran, _⟩
  have reports : PartialRun.Permitted (Sweep.step SampleSearch.config.crypto SampleSearch.config.chance)
      (Sweep.Reports SampleSearch.config.crypto SampleSearch.config.chance
        fun node => node.id ∈ ({(SampleSearch.node 1).id} : Finset U160)) (Sweep.start [SampleSearch.node 0] []) climb := by
    apply permitted_climb
    · exact fun sweep => trivial
    · intro sweep tasks node own reported inside
      rw [tasks] at own
      cases own
      rw [List.mem_singleton.mp inside]
      exact Finset.mem_singleton_self _
    · intro sweep tasks node own reported inside
      rw [tasks] at own
      cases own
      exact absurd inside List.not_mem_nil
  have bounds := sweep_ends SampleSearch.config.crypto SampleSearch.config.chance [SampleSearch.node 0] []
    {(SampleSearch.node 1).id} climb final ran reports
  exact ⟨final, ran, bounds.1, bounds.2.1⟩

end DhtExplorer
