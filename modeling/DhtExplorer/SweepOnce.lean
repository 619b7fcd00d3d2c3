import DhtExplorer.SearchShape
import DhtExplorer.SweepQueue

namespace DhtExplorer

/-!
# Whom the sweep asks twice

An offered node is queued only if its id is new, so later nodes never bring an id
back.  The first queue is filled without this check.  The two searches at the
start may return one id with two addresses, and then both contacts are queued and
in the end asked.
-/

namespace Sweep

variable {crypto : Crypto} {chance : Chance} {self next : Sweep} {n : NodeInfo} {lowest highest : List NodeInfo}

/-- No id has two query tasks, whether these have finished or not. -/
def AsksOnce (self : Sweep) : Prop := ((self.tasks ++ self.asked).map NodeInfo.id).Nodup

/-- The nodes that wait to be asked, are being asked, or were asked. -/
def known (self : Sweep) : List NodeInfo := self.toSend.items ++ (self.tasks ++ self.asked)

structure OnePerId (sweep : Sweep) : Prop where
  ids_nodup : (sweep.known.map NodeInfo.id).Nodup
  ids_queried : forall n, n ∈ sweep.known -> n.id ∈ sweep.queried

theorem OnePerId.asksOnce (once : OnePerId self) : AsksOnce self :=
  once.ids_nodup.sublist ((List.sublist_append_right _ _).map NodeInfo.id)

/-- Moving nodes around changes nothing. -/
theorem OnePerId.of_perm (once : OnePerId self) (perm : next.known.Perm self.known)
    (queried : next.queried = self.queried) : OnePerId next where
  ids_nodup := (perm.map NodeInfo.id).nodup_iff.mpr once.ids_nodup
  ids_queried := fun n member => queried.symm ▸ once.ids_queried n (perm.mem_iff.mp member)

/-! ## What each step does to the known nodes -/

theorem OnePerId.offer (once : OnePerId self) (n : NodeInfo) : OnePerId (self.offer n) := by
  by_cases old : n.id ∈ self.queried
  · rw [offer_known old]
    exact once
  · have absent : forall present, present ∈ self.toSend.items -> present.sortKey ≠ n.sortKey := by
      intro present member same
      have one := NodeInfo.sortKey_injective same
      exact old (one ▸ once.ids_queried present (List.mem_append_left _ member))
    have perm : (self.offer n).known.Perm (n :: self.known) := by
      rw [offer_new old]
      exact (OrderedSet.perm_insert_of_taken (OrderedSet.insert_taken.mpr absent)).append_right _
    have queried : (self.offer n).queried = insert n.id self.queried := by
      rw [offer_new old]
    constructor
    · refine (perm.map NodeInfo.id).nodup_iff.mpr (List.nodup_cons.mpr ⟨fun member => ?_, once.ids_nodup⟩)
      rcases List.mem_map.mp member with ⟨other, inside, same⟩
      exact old (same ▸ once.ids_queried other inside)
    · intro other member
      rw [queried, Finset.mem_insert]
      rcases List.mem_cons.mp (perm.mem_iff.mp member) with rfl | before
      · exact Or.inl rfl
      · exact Or.inr (once.ids_queried other before)

theorem OnePerId.addToSendQueue (once : OnePerId self) (target : U160) (nodes : List NodeInfo) :
    OnePerId (self.addToSendQueue target nodes) := by
  unfold Sweep.addToSendQueue
  induction nodes.filter (fun n => target < n.id) generalizing self with
  | nil => exact once
  | cons n rest ih => exact ih (once.offer n)

/-- Starting a task takes the node out of the queue. -/
theorem queryNext_known (self : Sweep) :
    self.queryNext.known.Perm self.known ∧ self.queryNext.queried = self.queried := by
  unfold queryNext
  cases popped : self.toSend.popFirst with
  | none => exact ⟨List.Perm.refl _, rfl⟩
  | some pair =>
      rcases pair with ⟨n, toSend⟩
      refine ⟨?_, rfl⟩
      change (toSend.items ++ (self.tasks ++ [n] ++ self.asked)).Perm (self.toSend.items ++ (self.tasks ++ self.asked))
      rw [OrderedSet.popFirst_eq_some popped, List.append_assoc, List.singleton_append, List.cons_append]
      exact (List.perm_middle.append_left _).trans List.perm_middle

theorem OnePerId.queryNext (once : OnePerId self) : OnePerId self.queryNext :=
  once.of_perm (queryNext_known self).1 (queryNext_known self).2

/-- The step lemma. -/
theorem OnePerId.step {action : SweepAction} (once : OnePerId self)
    (stepped : Sweep.step crypto chance self action = some next) : OnePerId next := by
  cases moved_step stepped with
  | @ended task _ _ n here found =>
      refine once.of_perm ?_ rfl
      rcases List.getElem?_eq_some_iff.mp found with ⟨inside, there⟩
      have front := List.getElem_cons_eraseIdx_perm inside
      rw [there] at front
      change (self.toSend.items ++ (self.tasks.eraseIdx task ++ (self.asked ++ [n]))).Perm _
      apply List.Perm.append_left _
      calc
        List.Perm (self.tasks.eraseIdx task ++ (self.asked ++ [n])) (self.tasks.eraseIdx task ++ n :: self.asked) :=
          (List.perm_append_singleton n self.asked).append_left _
        List.Perm _ (n :: self.tasks.eraseIdx task ++ self.asked) := List.perm_middle
        List.Perm _ (self.tasks ++ self.asked) := front.append_right self.asked
  | looked here => exact once.of_perm (List.Perm.refl _) rfl
  | added here => exact (once.addToSendQueue _ _).of_perm (List.Perm.refl _) rfl
  | decided here handle => exact once.of_perm (List.Perm.refl _) rfl
  | popped here => exact once.queryNext.of_perm (List.Perm.refl _) rfl
  | refilled here => exact (once.addToSendQueue _ _).of_perm (List.Perm.refl _) rfl
  | staged elsewhere handle => exact once.of_perm (List.Perm.refl _) rfl

/-- The two searches agree on the address of every id. -/
def OneAddress (lowest highest : List NodeInfo) : Prop :=
  forall first, first ∈ lowest ++ highest -> forall second, second ∈ lowest ++ highest ->
    first.id = second.id -> first = second

theorem onePerId_initial (oneAddress : OneAddress lowest highest) : OnePerId (initial lowest highest) := by
  have same : (initial lowest highest).known = (initial lowest highest).toSend.items := List.append_nil _
  constructor
  · rw [same]
    have items : (initial lowest highest).toSend.items.Nodup := (initial lowest highest).toSend.nodup_keys.of_map
    apply items.map_on
    intro first firstMember second secondMember equal
    exact oneAddress first ((mem_initial _ _ _).mp firstMember) second ((mem_initial _ _ _).mp secondMember) equal
  · intro n member
    rw [same, mem_initial] at member
    exact List.mem_toFinset.mpr (List.mem_map_of_mem member)

theorem onePerId_start (oneAddress : OneAddress lowest highest) : OnePerId (start lowest highest) := by
  unfold start
  generalize 200 = travellers
  induction travellers with
  | zero => exact onePerId_initial oneAddress
  | succ count ih =>
      rw [Function.iterate_succ_apply']
      exact ih.queryNext

/-! ## A run that asks everyone -/

theorem queryNext_fields (self : Sweep) :
    self.queryNext.loop = self.loop ∧ self.queryNext.queued = self.queued := by
  unfold queryNext
  cases self.toSend.popFirst <;> exact ⟨rfl, rfl⟩

/-- A silent node makes room for the next one, and tells of none. -/
theorem silent_round {task : NodeInfo} {others rest : List NodeInfo} (crypto : Crypto) (chance : Chance)
    (waiting : self.loop = .waiting) (tasks : self.tasks = task :: others) (items : self.toSend.items = n :: rest) :
    Exists fun next =>
      PartialRun.run (step crypto chance) self [.finish 0 none none, .loop, .loop, .loop] = some next ∧
      next.loop = .waiting ∧ next.tasks = others ++ [n] ∧ next.toSend.items = rest ∧ next.queued = self.queued := by
  have ended : step crypto chance self (.finish 0 none none) =
      some { self with
        tasks := others, asked := self.asked ++ [task], tx := self.tx ++ [], loop := .received task.id [] } := by
    change self.finishStep 0 none none = _
    rw [finishStep, waiting, tasks]
    rfl
  cases popped : self.toSend.popFirst with
  | none =>
      rw [OrderedSet.popFirst_eq_none popped] at items
      cases items
  | some pair =>
      rcases pair with ⟨head, toSend⟩
      have same := (OrderedSet.popFirst_eq_some popped).symm.trans items
      rcases List.cons.inj same with ⟨rfl, rfl⟩
      have next : forall handle, queryNext { self with
          tasks := others, asked := self.asked ++ [task], tx := self.tx ++ [], backfillHandle := handle
          loop := .popping } = { self with
          tasks := others ++ [head], toSend := toSend, asked := self.asked ++ [task], tx := self.tx ++ []
          backfillHandle := handle, loop := .popping } := by
        intro handle
        rw [queryNext, popped]
      -- Whether a backfill is spawned makes no difference to the queue.
      have looped : Exists fun handle =>
          PartialRun.run (step crypto chance) self [.finish 0 none none, .loop, .loop, .loop] =
            some { queryNext { self with
              tasks := others, asked := self.asked ++ [task], tx := self.tx ++ [], backfillHandle := handle
              loop := .popping } with loop := .waiting } := by
        rw [PartialRun.run, ended, Option.bind_some]
        cases spawns : self.toSend.largeGap task.id && self.isFinished with
        | true =>
            refine ⟨some (.spawned task.id), ?_⟩
            change (if self.toSend.largeGap task.id && self.isFinished then _ else _ : Option Sweep).bind _ = _
            rw [spawns]
            rfl
        | false =>
            refine ⟨self.backfillHandle, ?_⟩
            change (if self.toSend.largeGap task.id && self.isFinished then _ else _ : Option Sweep).bind _ = _
            rw [spawns]
            rfl
      rcases looped with ⟨handle, ran⟩
      rw [next handle] at ran
      exact ⟨_, ran, rfl, rfl, rfl, rfl⟩

/-- While there are tasks, the loop can go on until the queue is empty. -/
theorem exists_drained (crypto : Crypto) (chance : Chance) (waiting : self.loop = .waiting) (busy : self.tasks ≠ []) :
    Exists fun actions => Exists fun final =>
      PartialRun.run (step crypto chance) self actions = some final ∧ final.toSend.items = [] ∧
      final.queued = self.queued := by
  induction items : self.toSend.items generalizing self with
  | nil => exact ⟨[], self, rfl, items, rfl⟩
  | cons n rest ih =>
      cases tasks : self.tasks with
      | nil => exact absurd tasks busy
      | cons task others =>
          rcases silent_round crypto chance waiting tasks items with
            ⟨next, round, nextWaiting, nextTasks, nextItems, sameQueued⟩
          have nextBusy : next.tasks ≠ [] := by
            rw [nextTasks]
            exact List.append_ne_nil_of_right_ne_nil others (List.cons_ne_nil n [])
          rcases ih nextWaiting nextBusy nextItems with ⟨actions, final, ran, empty, queued⟩
          exact ⟨_, final, PartialRun.run_append_eq_some.mpr ⟨next, round, ran⟩, empty, queued.trans sameQueued⟩

theorem start_fields (lowest highest : List NodeInfo) :
    (start lowest highest).loop = .waiting ∧ (start lowest highest).queued = lowest ++ highest := by
  unfold start
  generalize 200 = travellers
  induction travellers with
  | zero => exact ⟨rfl, rfl⟩
  | succ count ih =>
      rw [Function.iterate_succ_apply', (queryNext_fields _).1, (queryNext_fields _).2]
      exact ih

/-- Some run asks every node of the two searches. -/
theorem exists_run_asking_all (crypto : Crypto) (chance : Chance) (lowest highest : List NodeInfo) :
    Exists fun actions => Exists fun final => Sweep.run crypto chance lowest highest actions = some final ∧
      forall n, n ∈ lowest ++ highest -> n ∈ final.tasks ++ final.asked := by
  have drained : Exists fun actions => Exists fun final =>
      Sweep.run crypto chance lowest highest actions = some final ∧ final.toSend.items = [] ∧
      final.queued = (start lowest highest).queued := by
    by_cases busy : (start lowest highest).tasks = []
    · exact ⟨[], start lowest highest, rfl, drained_start lowest highest ⟨(start_fields lowest highest).1, busy⟩, rfl⟩
    · exact exists_drained crypto chance (start_fields lowest highest).1 busy
  rcases drained with ⟨actions, final, ran, empty, queued⟩
  refine ⟨actions, final, ran, fun n member => ?_⟩
  rw [<- (start_fields lowest highest).2, <- queued] at member
  rcases Accounted.run ran n member with waiting | asking | asked
  · rw [empty] at waiting
    exact absurd waiting List.not_mem_nil
  · exact List.mem_append_left _ asking
  · exact List.mem_append_right _ asked

end Sweep

/-- Every run of the sweep starts at most one query task for each id exactly when
the two searches at its start agree on the address of every id. -/
theorem sweep_asks_once_iff (crypto : Crypto) (chance : Chance) (lowest highest : List NodeInfo) :
    (forall actions final, Sweep.run crypto chance lowest highest actions = some final -> final.AsksOnce) <->
      Sweep.OneAddress lowest highest := by
  constructor
  · intro always first firstMember second secondMember same
    rcases Sweep.exists_run_asking_all crypto chance lowest highest with ⟨actions, final, ran, all⟩
    exact List.inj_on_of_nodup_map (always actions final ran) (all first firstMember) (all second secondMember) same
  · intro oneAddress actions final ran
    have once : Sweep.OnePerId final :=
      PartialRun.run_invariant (fun _ _ _ once stepped => Sweep.OnePerId.step once stepped)
        (Sweep.onePerId_start oneAddress) ran
    exact once.asksOnce

namespace Sweep

/-- `!U160::min()`. -/
def HIGHEST : U160 := .new 0xffffffffffffffffffffffffffffffff 0xffffffff

/-- The two searches that fill the queue, in networks that let their tasks finish in
these ways.  The second one starts from the table that the first one leaves. -/
def firstSearches (router : Router) (crypto : Crypto) (chance : Chance) (lowestNetwork highestNetwork : List Completion) :
    Option (List NodeInfo × List NodeInfo) := do
  let start ← router.lookup .min
  let lowest ← router.findNNodes crypto chance .min 255 lowestNetwork
  let router ← router.told ⟨crypto, chance, .min, false⟩ (Search.start .min start) lowestNetwork
  let highest ← router.findNNodes crypto chance HIGHEST 255 highestNetwork
  some (lowest, highest)

end Sweep

namespace SampleSweep

/-- The table knows one contact, which everybody starts from.  The id of another node
is banned, so it is never stored. -/
def router : Router :=
  ⟨[{ ownId := .min, bucketIndex := 0, kSize := 8, nodes := [SampleSearch.node 1] }], [(SampleSearch.node 0).id]⟩

def answer (node : NodeInfo) (nodes : List NodeInfo) : Option Response :=
  some ⟨.kNearest nodes none,
    { origin := .remote node, destination := .me, requestorAddr := none, transactionId := [] }⟩

/-- The contact tells of a node, which answers without telling of any. -/
def telling (node : NodeInfo) : List Completion :=
  [⟨0, none⟩, ⟨0, answer (SampleSearch.node 1) [node]⟩, ⟨0, answer node []⟩]

def lowest : List NodeInfo := [SampleSearch.node 0, SampleSearch.node 1]

def highest : List NodeInfo := [SampleSearch.node 1, SampleSearch.moved]

end SampleSweep

open SampleSweep in
/-- The two searches of the sweep find one id at two addresses, and the sweep asks
at both. -/
theorem sweep_asks_twice :
    (((Router.new SampleSearch.invalid).add (SampleSearch.node 1)).bind fun router =>
        router.banId (SampleSearch.node 0).id) = some router ∧
      Sweep.firstSearches router SampleSearch.config.crypto SampleSearch.config.chance (telling (SampleSearch.node 0))
        (telling SampleSearch.moved) = some (lowest, highest) ∧
      SampleSearch.moved.id = (SampleSearch.node 0).id ∧
      Exists fun final =>
        Sweep.run SampleSearch.config.crypto SampleSearch.config.chance lowest highest [] = some final ∧
        final.tasks = [SampleSearch.node 0, SampleSearch.moved, SampleSearch.node 1] ∧ ¬final.AsksOnce := by
  have twice : ((Sweep.start lowest highest).tasks, (Sweep.start lowest highest).asked) =
      ([SampleSearch.node 0, SampleSearch.moved, SampleSearch.node 1], []) := by
    decide +kernel
  rcases Prod.mk.inj twice with ⟨tasks, asked⟩
  refine ⟨rfl, by decide +kernel, rfl, Sweep.start lowest highest, rfl, tasks, ?_⟩
  rw [Sweep.AsksOnce, tasks, asked]
  decide +kernel

end DhtExplorer
