import DhtExplorer.Library.Semaphore
import DhtExplorer.QueueExactness

namespace DhtExplorer

/-!
# The limit on queries in progress

Queries of a search go through a semaphore, those of a sweep do not.  A limited call
is built, waits for a permit, and keeps it until it has returned.  So calls of both
kinds, packets and timers interleave as before, but a limited call that waits cannot
push its entry.

Permits are granted in the order of the calls.  As every call has a timer, no call
waits forever: the network can fall silent at any time, and all calls return.

The semaphore comes from another package, and is any fair one.
-/

/-- The last field is not read: it lists the limited calls. -/
structure LimitedState (Sem : Type) where
  service : ServiceState
  maxQ : Sem
  limited : List Nat

inductive LimitedAction where
  | query (query : Query)
  | queryUnbounded (query : Query)
  | service (action : ServiceAction)
  | dropPermit (call : Nat)

variable {Sem : Type} [FairSemaphore Sem Nat]

def LimitedState.initial (maxQ : UInt8) : LimitedState Sem := ⟨ServiceState.initial, FairSemaphore.new maxQ.toNat, []⟩

def Phase.isReturned : Phase -> Bool
  | .returned _ => true
  | _ => false

def ServiceState.hasReturned (state : ServiceState) (call : Nat) : Bool :=
  state.calls[call]?.any fun call => call.phase.isReturned

def Service.limitedStep (self : Service) (state : LimitedState Sem) : LimitedAction -> Option (LimitedState Sem)
  | .query query =>
      (self.step state.service (.start query)).map fun service =>
        { service := service
          maxQ := FairSemaphore.acquire state.maxQ state.service.calls.length
          limited := state.limited ++ [state.service.calls.length] }
  | .queryUnbounded query =>
      (self.step state.service (.start query)).map fun service => { state with service := service }
  | .service (.start _) => none
  | .service (.push call) =>
      if call ∈ FairSemaphore.waiting state.maxQ then none
      else (self.step state.service (.push call)).map fun service => { state with service := service }
  | .service action => (self.step state.service action).map fun service => { state with service := service }
  | .dropPermit call =>
      if state.service.hasReturned call then
        (FairSemaphore.release state.maxQ call).map fun maxQ => { state with maxQ := maxQ }
      else none

/-- The call has pushed its entry and has not returned. -/
def Phase.inProgress : Phase -> Bool
  | .sending | .selecting | .expired => true
  | .built | .returned _ => false

def ServiceState.inProgress (state : ServiceState) (call : Nat) : Bool :=
  state.calls[call]?.any fun call => call.phase.inProgress

theorem ServiceState.hasReturned_iff {state : ServiceState} {index : Nat} : state.hasReturned index = true <->
    Exists fun call => Exists fun outcome => state.calls[index]? = some call ∧ call.phase = .returned outcome := by
  rw [hasReturned, Option.any_eq_true]
  constructor
  · rintro ⟨call, found, returned⟩
    cases phase : call.phase with
    | returned outcome => exact ⟨call, outcome, found, phase⟩
    | _ =>
        rw [phase] at returned
        cases returned
  · rintro ⟨call, outcome, found, phase⟩
    exact ⟨call, found, by rw [phase]; rfl⟩

/-! ## What moves a call -/

/-- The call whose own step this is. -/
def ServiceAction.mover : ServiceAction -> Option Nat
  | .push call | .send call _ | .answered call | .expire call | .removeExpired call => some call
  | _ => none

variable {service : Service} {state next : ServiceState} {action : ServiceAction}

/-- A call stays where it is in the steps of others. -/
theorem Stepped.phase_kept (stepped : Stepped service state action next) {index : Nat} {call : Call}
    (found : state.calls[index]? = some call) (other : action.mover ≠ some index) :
    Exists fun later => next.calls[index]? = some later ∧ later.phase = call.phase := by
  have elsewhere : forall {calls : List Call} {target : Nat} (changed : Call), target ≠ index ->
      (Exists fun later : Call => calls[index]? = some later ∧ later.phase = call.phase) ->
      Exists fun later => (calls.set target changed)[index]? = some later ∧ later.phase = call.phase := by
    rintro calls target changed different ⟨later, laterFound, same⟩
    exact ⟨later, by rwa [List.getElem?_set_ne different], same⟩
  have modified : forall (target : Nat) (change : Call -> Call), (forall call, (change call).phase = call.phase) ->
      Exists fun later => (state.calls.modify target change)[index]? = some later ∧ later.phase = call.phase := by
    intro target change samePhase
    rw [List.getElem?_modify, found]
    by_cases same : target = index
    · exact ⟨change call, congrArg some (if_pos same), samePhase call⟩
    · exact ⟨call, congrArg some (if_neg same), rfl⟩
  have different : forall {target : Nat}, some target ≠ some index -> target ≠ index :=
    fun notSame same => notSame (congrArg some same)
  cases stepped with
  | start query => exact ⟨call, VecOps.getElem?_concat_of_some found _, rfl⟩
  | taken _ => exact ⟨call, found, rfl⟩
  | ignored _ => exact ⟨call, found, rfl⟩
  | @fulfil _ target result _ => exact modified target _ fun call => call.fulfilled_phase result
  | @timedOut _ _ removed _ _ _ _ => exact elsewhere _ (different other) (modified removed.returnValue _ Call.dropped_phase)
  | push _ _ | sent _ _ _ | unsent _ _ _ | answered _ _ _ | disconnected _ _ _ | expire _ _ | timedOutAlone _ _ _ =>
      exact elsewhere _ (different other) ⟨call, found, rfl⟩

/-- How far a call is from its end. -/
def Phase.rank : Phase -> Nat
  | .built => 4
  | .sending => 3
  | .selecting => 2
  | .expired => 1
  | .returned _ => 0

def ServiceState.remaining (state : ServiceState) : Nat := (state.calls.map fun call => call.phase.rank).sum

/-- Every call that has not returned has a step of its own, which brings it closer to
its end and needs no packet. -/
theorem ServiceState.advances (service : Service) {index : Nat} {call : Call} (found : state.calls[index]? = some call)
    (unreturned : forall outcome, call.phase ≠ .returned outcome) :
    Exists fun action => Exists fun next => ServiceAction.mover action = some index ∧
      Stepped service state action next ∧ next.remaining < state.remaining := by
  have lessOf : forall {calls : List Call} {changed : Call}, calls[index]? = some call ->
      calls.map (fun call => call.phase.rank) = state.calls.map (fun call => call.phase.rank) ->
      changed.phase.rank < call.phase.rank ->
      ((calls.set index changed).map fun call => call.phase.rank).sum < state.remaining := by
    intro calls changed there same smaller
    have sums := VecOps.sum_map_set (fun call : Call => call.phase.rank) there changed
    rw [same] at sums
    rw [remaining]
    omega
  have less : forall {changed : Call}, changed.phase.rank < call.phase.rank ->
      ((state.calls.set index changed).map fun call => call.phase.rank).sum < state.remaining := lessOf found rfl
  cases phase : call.phase with
  | built => exact ⟨_, _, rfl, .push found phase, less (by simp [phase, Phase.rank])⟩
  | sending =>
      rcases service.sendMessage_query call.query none with ⟨_, description, failure⟩ | ⟨_, packet, sent⟩
      · exact ⟨_, _, rfl, .unsent found phase failure, less (by simp [phase, Phase.rank, Call.fails])⟩
      · exact ⟨_, _, rfl, .sent found phase sent, less (by simp [phase, Phase.rank])⟩
  | selecting => exact ⟨_, _, rfl, .expire found phase, less (by simp [phase, Phase.rank])⟩
  | expired =>
      cases removal : removeFromQueue state.queue call.query.base.transactionId call.query.base.origin.addr with
      | none => exact ⟨_, _, rfl, .timedOutAlone found phase removal, less (by simp [phase, Phase.rank, Call.fails])⟩
      | some pair =>
          rcases pair with ⟨removed, queue⟩
          refine ⟨_, _, rfl, .timedOut found phase removal, lessOf ?_ ?_ (by simp [phase, Phase.rank, Call.fails])⟩
          · exact VecOps.getElem?_modify_of_fixed removed.returnValue found (Call.dropped_of_expired phase)
          · exact VecOps.map_modify_of_same (fun call : Call => congrArg Phase.rank call.dropped_phase) _ _
  | returned outcome => exact absurd phase (unreturned outcome)

/-! ## The forms of a step -/

inductive LimitedState.Moved (service : Service) (state : LimitedState Sem) : LimitedState Sem -> Prop where
  | query (query : Query) {messenger : ServiceState}
      (stepped : Stepped service state.service (.start query) messenger) :
      Moved service state
        { service := messenger
          maxQ := FairSemaphore.acquire state.maxQ state.service.calls.length
          limited := state.limited ++ [state.service.calls.length] }
  | service {action : ServiceAction} {messenger : ServiceState}
      (permitted : forall call, action = .push call -> call ∉ FairSemaphore.waiting state.maxQ)
      (stepped : Stepped service state.service action messenger) :
      Moved service state { state with service := messenger }
  | dropPermit {call : Nat} {maxQ : Sem} (returned : state.service.hasReturned call = true)
      (released : FairSemaphore.release state.maxQ call = some maxQ) : Moved service state { state with maxQ := maxQ }

theorem Service.moved_of_limitedStep {state next : LimitedState Sem} {action : LimitedAction}
    (taken : service.limitedStep state action = some next) : state.Moved service next := by
  cases action with
  | query query =>
      cases taken
      exact .query query (.start query)
  | queryUnbounded query =>
      cases taken
      exact .service (by simp) (.start query)
  | dropPermit call =>
      unfold limitedStep at taken
      dsimp only at taken
      split at taken
      · rename_i returned
        rcases Option.map_eq_some_iff.mp taken with ⟨maxQ, released, rfl⟩
        exact .dropPermit returned released
      · cases taken
  | service action =>
      cases action with
      | start query => cases taken
      | push call =>
          unfold limitedStep at taken
          dsimp only at taken
          split at taken
          · cases taken
          · rename_i granted
            rcases Option.map_eq_some_iff.mp taken with ⟨messenger, stepped, rfl⟩
            refine .service (fun other same => ?_) (stepped_of_step stepped)
            cases same
            exact granted
      | _ =>
          rcases Option.map_eq_some_iff.mp taken with ⟨messenger, stepped, rfl⟩
          exact .service (by simp) (stepped_of_step stepped)

/-! ## The invariant -/

namespace LimitedState

/-- The permits are fair, a call that waits is not pushed, and a call that does not wait
holds its permit until it has returned. -/
structure Sound (total : Nat) (state : LimitedState Sem) : Prop where
  fair : FairSemaphore.Fair total state.limited state.maxQ
  sorted : state.limited.Pairwise (· < ·)
  known : forall call, call ∈ state.limited -> call < state.service.calls.length
  waits : forall call, call ∈ FairSemaphore.waiting state.maxQ -> Exists fun made =>
    state.service.calls[call]? = some made ∧ made.phase = .built
  keeps : forall call, call ∈ state.limited -> call ∈ FairSemaphore.waiting state.maxQ ∨
    call ∈ FairSemaphore.holding state.maxQ ∨ state.service.hasReturned call = true

variable {total : Nat} {state next : LimitedState Sem}

theorem sound_initial (maxQ : UInt8) : (initial maxQ : LimitedState Sem).Sound maxQ.toNat := by
  refine ⟨FairSemaphore.fair_new _, List.Pairwise.nil, fun _ member => absurd member List.not_mem_nil,
    fun call waiting => ?_, fun _ member => absurd member List.not_mem_nil⟩
  have nobody : FairSemaphore.waiting (FairSemaphore.new maxQ.toNat : Sem) = [] := (FairSemaphore.new_spec _).2.1
  rw [initial, nobody] at waiting
  cases waiting

theorem hasReturned_kept {service : Service} {before after : ServiceState} {action : ServiceAction} {call : Nat}
    (stepped : Stepped service before action after) (returned : before.hasReturned call = true) :
    after.hasReturned call = true := by
  rcases ServiceState.hasReturned_iff.mp returned with ⟨made, outcome, found, phase⟩
  rcases stepped.returned found phase with ⟨later, laterFound, laterPhase⟩
  exact ServiceState.hasReturned_iff.mpr ⟨later, outcome, laterFound, laterPhase⟩

/-- A call that waits cannot move. -/
theorem Sound.mover_of_waiting {service : Service} {action : ServiceAction} {messenger : ServiceState} {call : Nat}
    {made : Call} (permitted : forall call, action = .push call -> call ∉ FairSemaphore.waiting state.maxQ)
    (stepped : Stepped service state.service action messenger) (waiting : call ∈ FairSemaphore.waiting state.maxQ)
    (found : state.service.calls[call]? = some made) (built : made.phase = .built) : action.mover ≠ some call := by
  intro own
  have other : forall {moved : Call}, state.service.calls[call]? = some moved -> moved.phase = .built := by
    intro moved movedFound
    rw [found, Option.some.injEq] at movedFound
    exact movedFound ▸ built
  cases stepped with
  | start _ | taken _ | ignored _ | fulfil _ => cases own
  | push _ _ =>
      cases own
      exact permitted call rfl waiting
  | sent there phase _ | unsent there phase _ | answered there phase _ | disconnected there phase _
  | expire there phase | timedOut there phase _ | timedOutAlone there phase _ =>
      cases own
      rw [other there] at phase
      cases phase

theorem Sound.moved {service : Service} (sound : state.Sound total) (moved : state.Moved service next) :
    next.Sound total := by
  cases moved with
  | query query stepped =>
      rcases stepped.length_calls with same | ⟨_, _, longer⟩
      · cases stepped
        rw [List.length_append, List.length_singleton] at same
        omega
      · refine ⟨sound.fair.acquire _, ?_, fun call member => ?_, fun call waiting => ?_, fun call member => ?_⟩
        · refine List.pairwise_append.mpr ⟨sound.sorted, List.pairwise_singleton _ _, fun call member other last => ?_⟩
          rw [List.mem_singleton.mp last]
          exact sound.known call member
        · rw [longer]
          rcases List.mem_append.mp member with old | new
          · exact Nat.lt_succ_of_lt (sound.known call old)
          · rw [List.mem_singleton.mp new]
            exact Nat.lt_succ_self _
        · rcases sound.fair.waited_acquire _ waiting with before | rfl
          · rcases sound.waits call before with ⟨made, found, built⟩
            rcases stepped.phase_kept found (by simp [ServiceAction.mover]) with ⟨later, laterFound, same⟩
            exact ⟨later, laterFound, same.trans built⟩
          · cases stepped
            exact ⟨_, List.getElem?_concat_length, rfl⟩
        · rcases List.mem_append.mp member with old | new
          · rcases sound.keeps call old with waits | holds | returned
            · exact Or.inl (sound.fair.waiting_acquire _ waits)
            · exact Or.inr (Or.inl (sound.fair.holding_acquire _ holds))
            · exact Or.inr (Or.inr (hasReturned_kept stepped returned))
          · rw [List.mem_singleton.mp new]
            exact (sound.fair.takes_acquire _).imp_right Or.inl
  | service permitted stepped =>
      refine ⟨sound.fair, sound.sorted, fun call member => ?_, fun call waiting => ?_, fun call limited => ?_⟩
      · have before := sound.known call member
        rcases stepped.length_calls with same | ⟨_, _, longer⟩
        · exact same ▸ before
        · rw [longer]
          exact Nat.lt_succ_of_lt before
      · rcases sound.waits call waiting with ⟨made, found, built⟩
        rcases stepped.phase_kept found (mover_of_waiting permitted stepped waiting found built) with
          ⟨later, laterFound, same⟩
        exact ⟨later, laterFound, same.trans built⟩
      · exact (sound.keeps call limited).imp_right fun later => later.imp_right (hasReturned_kept stepped)
  | dropPermit returned released =>
      refine ⟨sound.fair.release released, sound.sorted, sound.known, fun call waiting => ?_, fun call limited => ?_⟩
      · exact sound.waits call (FairSemaphore.waited_release released waiting)
      · refine (em (call = _)).elim (fun same => Or.inr (Or.inr (same ▸ returned))) fun different => ?_
        rcases sound.keeps call limited with waits | holds | finished
        · exact (FairSemaphore.waiting_release released waits different).imp_right Or.inl
        · exact Or.inr (Or.inl (FairSemaphore.holding_release holds different released))
        · exact Or.inr (Or.inr finished)

/-- The run lemma. -/
theorem Sound.run {service : Service} {maxQ : UInt8} {actions : List LimitedAction} {final : LimitedState Sem}
    (ran : PartialRun.run service.limitedStep (.initial maxQ) actions = some final) : final.Sound maxQ.toNat :=
  PartialRun.run_invariant (fun _ _ _ sound taken => sound.moved (service.moved_of_limitedStep taken))
    (sound_initial maxQ) ran

/-! ## How many calls are in progress -/

theorem Sound.nodup (sound : state.Sound total) : state.limited.Nodup := sound.sorted.imp Nat.ne_of_lt

/-- A limited call in progress holds a permit. -/
theorem Sound.holds_of_inProgress (sound : state.Sound total) {call : Nat} (limited : call ∈ state.limited)
    (active : state.service.inProgress call = true) : call ∈ FairSemaphore.holding state.maxQ := by
  rcases (Option.any_eq_true _ _).mp active with ⟨made, found, inside⟩
  rcases sound.keeps call limited with waiting | holds | returned
  · rcases sound.waits call waiting with ⟨same, sameFound, built⟩
    rw [found, Option.some.injEq] at sameFound
    rw [sameFound, built] at inside
    cases inside
  · exact holds
  · rcases ServiceState.hasReturned_iff.mp returned with ⟨same, outcome, sameFound, finished⟩
    rw [found, Option.some.injEq] at sameFound
    rw [sameFound, finished] at inside
    cases inside

/-! ## No call waits forever -/

/-- All calls have returned and given their permits back. -/
def Drained (state : LimitedState Sem) : Prop :=
  (forall (index : Nat) (call : Call), state.service.calls[index]? = some call ->
      Exists fun outcome => call.phase = .returned outcome) ∧
    FairSemaphore.waiting state.maxQ = [] ∧ FairSemaphore.holding state.maxQ = []

def measure (state : LimitedState Sem) : Nat :=
  state.service.remaining + ((FairSemaphore.waiting state.maxQ).length + (FairSemaphore.holding state.maxQ).length)

/-- Nothing that comes from outside: no new query and no packet. -/
def Silent : LimitedAction -> Prop
  | .query _ => False
  | .queryUnbounded _ => False
  | .service (.receive _) => False
  | _ => True

/-- A call that does not wait can move. -/
theorem Sound.advances (service : Service) (sound : state.Sound total) {index : Nat} {call : Call}
    (found : state.service.calls[index]? = some call) (unreturned : forall outcome, call.phase ≠ .returned outcome)
    (free : index ∉ FairSemaphore.waiting state.maxQ) :
    Exists fun action => Exists fun next => Silent action ∧ service.limitedStep state action = some next ∧
      next.Sound total ∧ next.measure < state.measure := by
  rcases ServiceState.advances service found unreturned with ⟨action, messenger, mover, stepped, less⟩
  have taken : Silent (.service action) ∧
      service.limitedStep state (.service action) = some { state with service := messenger } := by
    have moved := stepped.step
    cases action with
    | start query => cases mover
    | receive result => cases mover
    | fulfil index => cases mover
    | push target =>
        cases mover
        refine ⟨trivial, ?_⟩
        unfold Service.limitedStep
        dsimp only
        rw [if_neg free, moved]
        rfl
    | _ => exact ⟨trivial, congrArg (Option.map _) moved⟩
  refine ⟨_, _, taken.1, taken.2, sound.moved (service.moved_of_limitedStep taken.2), ?_⟩
  exact Nat.add_lt_add_right less _

/-- Who holds a permit moves, or gives it back. -/
theorem Sound.progress_of_holding (service : Service) (sound : state.Sound total) {call : Nat}
    (holds : call ∈ FairSemaphore.holding state.maxQ) :
    Exists fun action => Exists fun next => Silent action ∧ service.limitedStep state action = some next ∧
      next.Sound total ∧ next.measure < state.measure := by
  rcases sound.fair.asked_of_holding sound.nodup holds with ⟨limited, free⟩
  cases returned : state.service.hasReturned call with
  | true =>
      rcases FairSemaphore.release_fewer holds with ⟨maxQ, released, fewer⟩
      have taken : service.limitedStep state (.dropPermit call) = some { state with maxQ := maxQ } := by
        unfold Service.limitedStep
        dsimp only
        rw [if_pos returned, released]
        rfl
      exact ⟨.dropPermit call, _, trivial, taken, sound.moved (service.moved_of_limitedStep taken),
        Nat.add_lt_add_left fewer _⟩
  | false =>
      have found := List.getElem?_eq_getElem (sound.known call limited)
      refine sound.advances service found (fun outcome finished => ?_) free
      rw [ServiceState.hasReturned_iff.mpr ⟨_, outcome, found, finished⟩] at returned
      cases returned

theorem Sound.progress (service : Service) (positive : 0 < total) (sound : state.Sound total) (busy : ¬state.Drained) :
    Exists fun action => Exists fun next => Silent action ∧ service.limitedStep state action = some next ∧
      next.Sound total ∧ next.measure < state.measure := by
  cases holding : FairSemaphore.holding state.maxQ with
  | cons call others => exact sound.progress_of_holding service (holding ▸ List.mem_cons_self)
  | nil =>
      have nobody : FairSemaphore.waiting state.maxQ = [] := by
        by_contra waits
        have all := sound.fair.length_holding waits
        rw [holding] at all
        exact Nat.ne_of_lt positive all
      by_contra stuck
      refine busy ⟨fun index call found => ?_, nobody, holding⟩
      by_contra unreturned
      refine stuck (sound.advances service found (fun outcome finished => unreturned ⟨outcome, finished⟩) ?_)
      rw [nobody]
      exact List.not_mem_nil

end LimitedState

/-- In every run of the messenger, whatever calls, packets and timers do: at most as
many limited calls are in progress as there are permits, all permits are in use while a
limited call waits for one, and no limited call pushes its entry before an earlier one. -/
theorem limited_queries (service : Service) (maxQ : UInt8) (actions : List LimitedAction) (final : LimitedState Sem)
    (ran : PartialRun.run service.limitedStep (.initial maxQ) actions = some final) :
    (final.limited.filter final.service.inProgress).length ≤ maxQ.toNat ∧
    FairSemaphore.permits final.maxQ + (FairSemaphore.holding final.maxQ).length = maxQ.toNat ∧
    (FairSemaphore.waiting final.maxQ ≠ [] -> (FairSemaphore.holding final.maxQ).length = maxQ.toNat) ∧
    forall earlier later, earlier ∈ FairSemaphore.waiting final.maxQ -> later ∈ final.limited -> earlier < later ->
      Exists fun call => final.service.calls[later]? = some call ∧ call.phase = .built := by
  have sound := LimitedState.Sound.run ran
  refine ⟨?_, sound.fair.balance, sound.fair.length_holding, fun earlier later waiting limited inOrder =>
    sound.waits later (sound.fair.overtakes_nobody sound.sorted waiting limited (Nat.lt_asymm inOrder))⟩
  have within : (final.limited.filter final.service.inProgress).Subperm (FairSemaphore.holding final.maxQ) := by
    apply (sound.nodup.filter _).subperm
    intro call member
    rcases List.mem_filter.mp member with ⟨limited, active⟩
    exact sound.holds_of_inProgress limited active
  exact within.length_le.trans sound.fair.length_holding_le

/-- From every state of every run, calls can return on their own: without another
packet, the timers bring every call to its end, and every permit back. -/
theorem queries_drain (service : Service) (maxQ : UInt8) (positive : 0 < maxQ) (actions : List LimitedAction)
    (state : LimitedState Sem) (ran : PartialRun.run service.limitedStep (.initial maxQ) actions = some state) :
    Exists fun more => Exists fun final => PartialRun.run service.limitedStep state more = some final ∧
      (forall action, action ∈ more -> LimitedState.Silent action) ∧
      (forall (index : Nat) (call : Call), final.service.calls[index]? = some call ->
        Exists fun outcome => call.phase = .returned outcome) ∧
      FairSemaphore.waiting final.maxQ = [] ∧ FairSemaphore.permits final.maxQ = maxQ.toNat := by
  have progress : forall state : LimitedState Sem, state.Sound maxQ.toNat -> ¬state.Drained ->
      Exists fun action => Exists fun next => LimitedState.Silent action ∧
        service.limitedStep state action = some next ∧ next.Sound maxQ.toNat ∧ next.measure < state.measure :=
    fun state sound busy => sound.progress service (UInt8.lt_iff_toNat_lt.mp positive) busy
  rcases PartialRun.run_until_done progress (LimitedState.Sound.run ran) with
    ⟨more, final, ranMore, silent, sound, returned, nobody, released⟩
  refine ⟨more, final, ranMore, silent, returned, nobody, ?_⟩
  have balance := sound.fair.balance
  rw [released] at balance
  exact balance

namespace Sample

/-- One permit for two calls. -/
def twoQueries : List LimitedAction :=
  [.query (ping [0, 1] first), .query (ping [0, 2] first), .service (.push 0), .service (.send 0 none)]

end Sample

open Sample in
theorem limited_queries_two : Exists fun final : LimitedState (Semaphore Nat) =>
    PartialRun.run messenger.limitedStep (.initial 1) twoQueries = some final ∧ final.maxQ.waiting = [1] ∧
      (final.limited.filter final.service.inProgress).length ≤ 1 := by
  have ran : Exists fun final : LimitedState (Semaphore Nat) =>
      PartialRun.run messenger.limitedStep (.initial 1) twoQueries = some final ∧ final.maxQ.waiting = [1] := ⟨_, rfl, rfl⟩
  rcases ran with ⟨final, ran, waiting⟩
  exact ⟨final, ran, waiting, (limited_queries messenger 1 twoQueries final ran).1⟩

open Sample in
theorem queries_drain_two : Exists fun state : LimitedState (Semaphore Nat) => Exists fun more => Exists fun final =>
    PartialRun.run messenger.limitedStep (.initial 1) twoQueries = some state ∧
      PartialRun.run messenger.limitedStep state more = some final ∧ final.maxQ.permits = 1 := by
  have ran : Exists fun state : LimitedState (Semaphore Nat) =>
      PartialRun.run messenger.limitedStep (.initial 1) twoQueries = some state := ⟨_, rfl⟩
  rcases ran with ⟨state, ran⟩
  rcases queries_drain messenger 1 (by decide) twoQueries state ran with ⟨more, final, ranMore, _, _, _, permits⟩
  exact ⟨state, more, final, ran, ranMore, permits⟩

end DhtExplorer
