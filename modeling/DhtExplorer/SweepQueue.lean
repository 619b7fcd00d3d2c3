import DhtExplorer.Library.VecOps
import DhtExplorer.SearchInvariant
import DhtExplorer.Sweep

namespace DhtExplorer

/-!
# What the sweep leaves in its queue

Every queued node is still in the queue, is being asked, or was asked.  The loop
takes a node out of the queue after every answer, so when its last task has ended
the queue was empty once.  Only the backfill task can fill it again, and no one
takes those nodes out.
-/

theorem NodeInfo.sortKey_injective : Function.Injective NodeInfo.sortKey := by
  rintro ⟨firstId, firstAddr⟩ ⟨secondId, secondAddr⟩ same
  rcases List.cons.inj same with ⟨ids, addrs⟩
  have sameId : firstId = secondId := U160.toNat_injective ids
  have sameAddr : firstAddr = secondAddr := by
    cases firstAddr <;> cases secondAddr <;>
      simp_all [SocketAddr.sortKey, BitVec.toNat_inj, UInt16.toNat_inj, UInt32.toNat_inj]
  rw [sameId, sameAddr]

namespace Sweep

variable {crypto : Crypto} {chance : Chance} {self next : Sweep} {n : NodeInfo}

/-- The node is in the queue after it was inserted, whether it was taken or not. -/
theorem mem_toSend_insert (toSend : SendQueue) (n : NodeInfo) : n ∈ (toSend.insert n).1.items := by
  rcases toSend.key_mem_insert n with ⟨present, member, same⟩
  exact NodeInfo.sortKey_injective same ▸ member

/-! ## Adding to the queue -/

theorem offer_known (known : n.id ∈ self.queried) : self.offer n = self := if_pos known

theorem offer_new (new : n.id ∉ self.queried) :
    self.offer n =
      { self with
        queried := insert n.id self.queried
        toSend := (self.toSend.insert n).1
        queued := if (self.toSend.insert n).2 then self.queued ++ [n] else self.queued } := if_neg new

/-- What a change of the queue leaves alone. -/
structure SameTasks (before after : Sweep) : Prop where
  tasks : after.tasks = before.tasks
  loop : after.loop = before.loop
  asked : after.asked = before.asked

theorem SameTasks.trans {middle : Sweep} (first : SameTasks self middle) (second : SameTasks middle next) :
    SameTasks self next :=
  ⟨second.tasks.trans first.tasks, second.loop.trans first.loop, second.asked.trans first.asked⟩

theorem sameTasks_offer (self : Sweep) (n : NodeInfo) : SameTasks self (self.offer n) := by
  by_cases known : n.id ∈ self.queried
  · rw [offer_known known]
    exact ⟨rfl, rfl, rfl⟩
  · rw [offer_new known]
    exact ⟨rfl, rfl, rfl⟩

theorem sameTasks_addToSendQueue (self : Sweep) (target : U160) (nodes : List NodeInfo) :
    SameTasks self (self.addToSendQueue target nodes) := by
  unfold addToSendQueue
  induction nodes.filter (fun n => target < n.id) generalizing self with
  | nil => exact ⟨rfl, rfl, rfl⟩
  | cons n rest ih => exact (sameTasks_offer self n).trans (ih (self.offer n))

/-- A node leaves the queue empty if its id is known, and fills it otherwise. -/
theorem offer_empty_iff (self : Sweep) (n : NodeInfo) :
    (self.offer n).toSend.items = [] <-> self.toSend.items = [] ∧ n.id ∈ self.queried := by
  by_cases known : n.id ∈ self.queried
  · rw [offer_known known]
    exact (and_iff_left known).symm
  · rw [offer_new known]
    constructor
    · intro empty
      exact absurd (mem_toSend_insert self.toSend n) (empty ▸ List.not_mem_nil)
    · exact fun both => absurd both.2 known

theorem addToSendQueue_empty_iff (self : Sweep) (target : U160) (nodes : List NodeInfo) :
    (self.addToSendQueue target nodes).toSend.items = [] <->
      self.toSend.items = [] ∧ forall n, n ∈ nodes -> target < n.id -> n.id ∈ self.queried := by
  have fold : forall (offered : List NodeInfo) (self : Sweep), (offered.foldl offer self).toSend.items = [] <->
      self.toSend.items = [] ∧ forall n, n ∈ offered -> n.id ∈ self.queried := by
    intro offered
    induction offered with
    | nil => exact fun self => (and_iff_left fun n member => absurd member List.not_mem_nil).symm
    | cons n rest ih =>
        intro self
        rw [List.foldl_cons, ih, offer_empty_iff, List.forall_mem_cons, and_assoc]
        refine and_congr_right fun _ => and_congr_right fun known => ?_
        rw [offer_known known]
  rw [addToSendQueue, fold]
  refine and_congr_right fun _ => forall_congr' fun n => ?_
  rw [List.mem_filter, decide_eq_true_iff, and_imp]

/-! ## What a step can do -/

inductive Moved (before : Sweep) : SweepAction -> Sweep -> Prop where
  | ended {task : Nat} {sampling finding : Option Response} {n : NodeInfo} (here : before.loop = .waiting)
      (found : before.tasks[task]? = some n) :
      Moved before (.finish task sampling finding)
        { before with
          tasks := before.tasks.eraseIdx task
          asked := before.asked ++ [n]
          tx := before.tx ++ (queryOne n sampling finding).2.2.getD []
          loop := .received (queryOne n sampling finding).1 (queryOne n sampling finding).2.1 }
  | looked {target : U160} (here : before.loop = .received target []) :
      Moved before .loop { before with loop := .looked target (before.toSend.largeGap target) }
  | added {target : U160} {nodes : List NodeInfo} (here : before.loop = .received target nodes) :
      Moved before .loop { before.addToSendQueue target nodes with loop := .popping }
  | decided {target : U160} {largeGap : Bool} (here : before.loop = .looked target largeGap)
      (handle : Option BackfillStage) :
      Moved before .loop { before with backfillHandle := handle, loop := .popping }
  | popped (here : before.loop = .popping) : Moved before .loop { before.queryNext with loop := .waiting }
  | refilled {network : List Completion} {target : U160} {nodes : List NodeInfo}
      (here : before.backfillHandle = some (.adding target nodes)) :
      Moved before (.backfill network) { before.addToSendQueue target nodes with backfillHandle := some .leaving }
  | staged {network : List Completion}
      (elsewhere : forall target nodes, before.backfillHandle ≠ some (.adding target nodes))
      (handle : Option BackfillStage) :
      Moved before (.backfill network) { before with backfillHandle := handle }

theorem moved_finish {task : Nat} {sampling finding : Option Response}
    (stepped : self.finishStep task sampling finding = some next) : Moved self (.finish task sampling finding) next := by
  unfold finishStep at stepped
  split at stepped
  · rename_i here
    rcases Option.map_eq_some_iff.mp stepped with ⟨n, found, rfl⟩
    exact .ended here found
  · cases stepped

theorem moved_loop (stepped : self.loopStep = some next) : Moved self .loop next := by
  unfold loopStep at stepped
  split at stepped
  · cases stepped
  · rename_i target nodes here
    split at stepped
    · rename_i empty
      cases stepped
      exact .looked (List.isEmpty_iff.mp empty ▸ here)
    · cases stepped
      exact .added here
  · rename_i target largeGap here
    split at stepped
    · cases stepped
      exact .decided here _
    · cases stepped
      exact .decided here self.backfillHandle
  · rename_i here
    cases stepped
    exact .popped here

theorem moved_backfill {network : List Completion} (stepped : self.backfillStep crypto chance network = some next) :
    Moved self (.backfill network) next := by
  unfold backfillStep at stepped
  split at stepped
  · cases stepped
  · rename_i target here
    cases stepped
    exact .staged (fun _ _ adding => by cases here.symm.trans adding) _
  · rename_i target nodes here
    rcases Option.map_eq_some_iff.mp stepped with ⟨found, _, rfl⟩
    exact .staged (fun _ _ adding => by cases here.symm.trans adding) _
  · rename_i target nodes here
    cases stepped
    exact .refilled here
  · rename_i here
    cases stepped
    exact .staged (fun _ _ adding => by cases here.symm.trans adding) _
  · cases stepped

theorem moved_step {action : SweepAction} (stepped : step crypto chance self action = some next) :
    Moved self action next := by
  cases action with
  | finish task sampling finding => exact moved_finish stepped
  | loop => exact moved_loop stepped
  | backfill network => exact moved_backfill stepped

/-! ## Every queued node is accounted for -/

def Accounted (self : Sweep) : Prop :=
  forall n, n ∈ self.queued -> n ∈ self.toSend.items ∨ n ∈ self.tasks ∨ n ∈ self.asked

theorem Accounted.offer (accounted : Accounted self) (n : NodeInfo) : Accounted (self.offer n) := by
  by_cases known : n.id ∈ self.queried
  · rw [offer_known known]
    exact accounted
  · rw [offer_new known]
    intro other member
    have cases : other ∈ self.queued ∨ other = n := by
      change other ∈ (if (self.toSend.insert n).2 then self.queued ++ [n] else self.queued) at member
      split at member
      · exact (List.mem_append.mp member).imp_right List.mem_singleton.mp
      · exact Or.inl member
    rcases cases with before | rfl
    · exact (accounted other before).imp_left ((self.toSend.sublist_insert n).mem)
    · exact Or.inl (mem_toSend_insert self.toSend other)

theorem Accounted.addToSendQueue (accounted : Accounted self) (target : U160) (nodes : List NodeInfo) :
    Accounted (self.addToSendQueue target nodes) := by
  unfold Sweep.addToSendQueue
  induction nodes.filter (fun n => target < n.id) generalizing self with
  | nil => exact accounted
  | cons n rest ih => exact ih (accounted.offer n)

/-- A node that leaves the queue is asked. -/
theorem Accounted.queryNext (accounted : Accounted self) : Accounted self.queryNext := by
  unfold Sweep.queryNext
  cases popped : self.toSend.popFirst with
  | none => exact accounted
  | some pair =>
      rcases pair with ⟨n, toSend⟩
      have items := OrderedSet.popFirst_eq_some popped
      intro other member
      rcases accounted other member with queued | asking | asked
      · rw [items] at queued
        rcases List.mem_cons.mp queued with rfl | later
        · exact Or.inr (Or.inl (List.mem_append_right _ List.mem_cons_self))
        · exact Or.inl later
      · exact Or.inr (Or.inl (List.mem_append_left _ asking))
      · exact Or.inr (Or.inr asked)

theorem Accounted.step {action : SweepAction} (accounted : Accounted self)
    (stepped : Sweep.step crypto chance self action = some next) : Accounted next := by
  cases moved_step stepped with
  | ended here found =>
      intro n member
      rcases accounted n member with queued | asking | asked
      · exact Or.inl queued
      · rcases VecOps.mem_eraseIdx_or found asking with rfl | still
        · exact Or.inr (Or.inr (List.mem_append_right _ List.mem_cons_self))
        · exact Or.inr (Or.inl still)
      · exact Or.inr (Or.inr (List.mem_append_left _ asked))
  | looked here => exact accounted
  | added here => exact accounted.addToSendQueue _ _
  | decided here handle => exact accounted
  | popped here => exact accounted.queryNext
  | refilled here => exact accounted.addToSendQueue _ _
  | staged elsewhere handle => exact accounted

/-- The first queue holds the nodes of the two searches. -/
theorem mem_initial (lowest highest : List NodeInfo) (n : NodeInfo) :
    n ∈ (initial lowest highest).toSend.items <-> n ∈ lowest ++ highest := by
  have fold : forall (nodes : List NodeInfo) (toSend : SendQueue),
      n ∈ (nodes.foldl (fun toSend n => (toSend.insert n).1) toSend).items <-> n ∈ nodes ∨ n ∈ toSend.items := by
    intro nodes
    induction nodes with
    | nil => exact fun toSend => ⟨Or.inr, fun member => member.resolve_left List.not_mem_nil⟩
    | cons head rest ih =>
        intro toSend
        have inserted : n ∈ (toSend.insert head).1.items <-> n ∈ toSend.items ∨ n = head := by
          constructor
          · intro member
            exact (OrderedSet.mem_insert.mp member).imp_right And.left
          · rintro (before | rfl)
            · exact (toSend.sublist_insert head).mem before
            · exact mem_toSend_insert toSend n
        rw [List.foldl_cons, ih, inserted, List.mem_cons, or_comm (a := n ∈ toSend.items), <- or_assoc,
          or_comm (a := n ∈ rest)]
  exact (fold _ _).trans (or_iff_left List.not_mem_nil)

theorem accounted_initial (lowest highest : List NodeInfo) : Accounted (initial lowest highest) :=
  fun n member => Or.inl ((mem_initial lowest highest n).mpr member)

theorem accounted_start (lowest highest : List NodeInfo) : Accounted (start lowest highest) := by
  unfold start
  generalize 200 = travellers
  induction travellers with
  | zero => exact accounted_initial lowest highest
  | succ count ih =>
      rw [Function.iterate_succ_apply']
      exact ih.queryNext

theorem Accounted.run {lowest highest : List NodeInfo} {actions : List SweepAction} {final : Sweep}
    (ran : Sweep.run crypto chance lowest highest actions = some final) : Accounted final :=
  PartialRun.run_invariant (fun _ _ _ accounted stepped => Accounted.step accounted stepped)
    (accounted_start lowest highest) ran

/-! ## The end of the loop -/

/-- The loop waits for a result and no task is left. -/
def Returned (self : Sweep) : Prop := self.loop = .waiting ∧ self.tasks = []

/-- The loop has not returned, or it left nothing behind. -/
def Drained (self : Sweep) : Prop := self.Returned -> self.toSend.items = []

/-- After the loop has returned, the backfill task adds no node with a new id. -/
def NoLateRefill (self : Sweep) : SweepAction -> Prop
  | .backfill _ => self.Returned -> forall target nodes, self.backfillHandle = some (.adding target nodes) ->
      forall n, n ∈ nodes -> target < n.id -> n.id ∈ self.queried
  | _ => True

instance decidableReturned (self : Sweep) : Decidable self.Returned :=
  inferInstanceAs (Decidable (_ ∧ _))

theorem noLateRefill_of_adding {self : Sweep} {target : U160} {nodes : List NodeInfo}
    (here : self.backfillHandle = some (.adding target nodes)) (network : List Completion) :
    NoLateRefill self (.backfill network) <->
      (self.Returned -> forall n, n ∈ nodes -> target < n.id -> n.id ∈ self.queried) := by
  refine imp_congr_right fun _ => ⟨fun all => all target nodes here, fun known other others adding => ?_⟩
  cases here.symm.trans adding
  exact known

instance decidableNoLateRefill (self : Sweep) : (action : SweepAction) -> Decidable (self.NoLateRefill action)
  | .finish _ _ _ => isTrue trivial
  | .loop => isTrue trivial
  | .backfill network =>
      match here : self.backfillHandle with
      | some (.adding _ _) => decidable_of_iff _ (noLateRefill_of_adding here network).symm
      | none | some (.spawned _) | some (.searching _ _) | some .leaving | some .finished =>
          isTrue fun _ _ _ adding => nomatch here.symm.trans adding

/-- Where a task was to be started and none is there, the queue is empty. -/
theorem queryNext_empty (none : self.queryNext.tasks = []) : self.queryNext.toSend.items = [] := by
  unfold queryNext at none ⊢
  cases popped : self.toSend.popFirst with
  | none => exact OrderedSet.popFirst_eq_none popped
  | some pair =>
      rw [popped] at none
      exact absurd none (List.append_ne_nil_of_right_ne_nil _ (List.cons_ne_nil _ _))

theorem iterate_queryNext_empty {count : Nat} (positive : 0 < count) (self : Sweep)
    (none : (Nat.iterate queryNext count self).tasks = []) : (Nat.iterate queryNext count self).toSend.items = [] := by
  cases count with
  | zero => exact absurd positive (Nat.lt_irrefl 0)
  | succ count =>
      rw [Function.iterate_succ_apply'] at none ⊢
      exact queryNext_empty none

theorem drained_start (lowest highest : List NodeInfo) : Drained (start lowest highest) := by
  unfold Drained Returned start
  exact fun returned => iterate_queryNext_empty (by decide) _ returned.2

/-- While the loop works, nothing is said about the queue. -/
theorem drained_of_working (working : self.loop ≠ .waiting) : Drained self :=
  fun returned => absurd returned.1 working

/-- The end of the loop is a matter of its stage and its tasks. -/
theorem returned_congr (loop : next.loop = self.loop) (tasks : next.tasks = self.tasks) :
    next.Returned <-> self.Returned := by
  rw [Returned, Returned, loop, tasks]

/-- Only the backfill task can keep the loop from leaving nothing behind. -/
theorem drained_step {action : SweepAction} (stepped : step crypto chance self action = some next) :
    Drained next <-> Drained self ∧ NoLateRefill self action := by
  cases moved_step stepped with
  | ended here found =>
      have running : Drained self := by
        rintro ⟨_, none⟩
        rw [none] at found
        cases found
      exact iff_of_true (drained_of_working fun same => by cases same) ⟨running, trivial⟩
  | looked here =>
      have working : Drained self := drained_of_working fun same => by cases here.symm.trans same
      exact iff_of_true (drained_of_working fun same => by cases same) ⟨working, trivial⟩
  | added here =>
      have working : Drained self := drained_of_working fun same => by cases here.symm.trans same
      exact iff_of_true (drained_of_working fun same => by cases same) ⟨working, trivial⟩
  | decided here handle =>
      have working : Drained self := drained_of_working fun same => by cases here.symm.trans same
      exact iff_of_true (drained_of_working fun same => by cases same) ⟨working, trivial⟩
  | popped here =>
      have working : Drained self := drained_of_working fun same => by cases here.symm.trans same
      exact iff_of_true (fun returned => queryNext_empty returned.2) ⟨working, trivial⟩
  | @refilled network target nodes here =>
      have same := sameTasks_addToSendQueue self target nodes
      have returned : Returned { self.addToSendQueue target nodes with backfillHandle := some .leaving } <->
          self.Returned := returned_congr same.loop same.tasks
      rw [Drained, Drained, returned, noLateRefill_of_adding here, <- imp_and]
      exact imp_congr_right fun _ => addToSendQueue_empty_iff self target nodes
  | staged elsewhere handle =>
      exact (and_iff_left fun _ target nodes adding => absurd adding (elsewhere target nodes)).symm

end Sweep

/-- At every return of the loop, the queue is empty and every queued node was
asked, exactly when the backfill task added no node with a new id after the
return. -/
theorem sweep_drained_iff (crypto : Crypto) (chance : Chance) (lowest highest : List NodeInfo)
    (actions : List SweepAction) (final : Sweep)
    (ran : Sweep.run crypto chance lowest highest actions = some final) (returned : final.Returned) :
    (final.toSend.items = [] ∧ forall n, n ∈ final.queued -> n ∈ final.asked) <->
      PartialRun.Permitted (Sweep.step crypto chance) Sweep.NoLateRefill (Sweep.start lowest highest) actions := by
  have drained : Sweep.Drained final <->
      PartialRun.Permitted (Sweep.step crypto chance) Sweep.NoLateRefill (Sweep.start lowest highest) actions :=
    (PartialRun.run_property_iff (fun _ _ _ stepped => Sweep.drained_step stepped) ran).trans
      (and_iff_right (Sweep.drained_start lowest highest))
  rw [<- drained]
  constructor
  · exact fun both _ => both.1
  · intro empty
    have nothing := empty returned
    refine ⟨nothing, fun n queued => ?_⟩
    rcases Sweep.Accounted.run ran n queued with waiting | asking | asked
    · rw [nothing] at waiting
      exact absurd waiting List.not_mem_nil
    · rw [returned.2] at asking
      exact absurd asking List.not_mem_nil
    · exact asked

namespace SampleSweep

/-! Four contacts with valid ids, in the order of the ids. -/

def first : NodeInfo := ⟨.new 0x1b0321dd1bb1fe518101ceef99462b94 0x7a01ff41, .v4 0x547c490e 6881⟩
def second : NodeInfo := ⟨.new 0x5a3ce9c14e7a08645677bbd1cfe7d8f9 0x56d53256, .v4 0x154b1f7c 6881⟩
def third : NodeInfo := ⟨.new 0xa5d43220bc8f112a3d426c84764f8c2a 0x1150e616, .v4 0x411733aa 6881⟩
def fourth : NodeInfo := ⟨.new 0xe56f6cbf5b7c4be0237986d5243b87aa 0x6d51305a, .v4 0x2bd53553 6881⟩

/-- The first contact tells of the next two, which are silent.  The gap behind the
second one starts a backfill, which finds the fourth when the loop has returned. -/
def actions : List SweepAction :=
  [.finish 0 (SampleSearch.answer (.samples [second, third] [] 0 0)) none, .loop, .loop,
    .finish 0 none none, .loop, .loop, .backfill [], .loop,
    .finish 0 none none, .loop, .loop, .loop,
    .backfill [⟨0, none⟩, ⟨0, SampleSearch.answer (.kNearest [fourth] none)⟩,
      ⟨0, SampleSearch.answer (.kNearest [] none)⟩],
    .backfill [], .backfill []]

end SampleSweep

open SampleSweep in
/-- The sweep has returned, its backfill task has finished, and a queued node was
never asked. -/
theorem sweep_leaves_node :
    (Sweep.run SampleSearch.config.crypto SampleSearch.config.chance [first] [] actions).map
        (fun final => (final.loop, final.tasks, final.backfillHandle, final.toSend.items, final.asked)) =
      some (.waiting, [], some .finished, [fourth], [first, second, third]) := by
  decide +kernel

namespace SampleSweep

/-- The backfill finds the fourth contact while the third one is asked.  The gap behind
the third starts another, which ends after the return and finds nothing new. -/
def inTime : List SweepAction :=
  [.finish 0 (SampleSearch.answer (.samples [second, third] [] 0 0)) none, .loop, .loop,
    .finish 0 none none, .loop, .loop, .backfill [], .loop,
    .backfill [⟨0, none⟩, ⟨0, SampleSearch.answer (.kNearest [fourth] none)⟩,
      ⟨0, SampleSearch.answer (.kNearest [] none)⟩],
    .backfill [], .backfill [],
    .finish 0 none none, .loop, .loop, .backfill [], .loop,
    .finish 0 none none, .loop, .loop, .loop,
    .backfill [⟨0, none⟩, ⟨0, SampleSearch.answer (.kNearest [third] none)⟩,
      ⟨0, SampleSearch.answer (.kNearest [] none)⟩],
    .backfill [], .backfill []]

end SampleSweep

open SampleSweep in
theorem sweep_drained_of_backfills :
    Exists fun final =>
      Sweep.run SampleSearch.config.crypto SampleSearch.config.chance [first] [] inTime = some final ∧
      final.backfillHandle = some .finished ∧ final.asked = [first, second, third, fourth] ∧
      final.toSend.items = [] ∧ forall n, n ∈ final.queued -> n ∈ final.asked := by
  have run : (Sweep.run SampleSearch.config.crypto SampleSearch.config.chance [first] [] inTime).map
      (fun final => (final.loop, final.tasks, final.backfillHandle, final.asked)) =
      some (.waiting, [], some .finished, [first, second, third, fourth]) := by
    decide +kernel
  rcases Option.map_eq_some_iff.mp run with ⟨final, ran, result⟩
  simp only [Prod.mk.injEq] at result
  rcases result with ⟨waiting, none, ended, asked⟩
  have permitted : PartialRun.Permitted (Sweep.step SampleSearch.config.crypto SampleSearch.config.chance)
      Sweep.NoLateRefill (Sweep.start [first] []) inTime := by
    decide +kernel
  exact ⟨final, ran, ended, asked, (sweep_drained_iff _ _ [first] [] _ final ran ⟨waiting, none⟩).mpr permitted⟩

end DhtExplorer
