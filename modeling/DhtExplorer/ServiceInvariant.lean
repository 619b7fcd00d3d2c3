import DhtExplorer.Service

namespace DhtExplorer

/-!
# What holds in every state of the service

The step function is read once: every step has one of the forms listed below.
From that list follow the facts all results about the service share.  An entry
in the queue is the one its call pushed, each call has at most one, and a call
is never both in the queue and about to be handed an answer.
-/

/-- The first entry in a queue that is selected by a transaction id, or by an
address when no entry has the id. -/
theorem removeFromQueue_eq_some {queue rest : List OutstandingQuery} {id : BigEndian.Bytes}
    {addr : SocketAddr} {entry : OutstandingQuery}
    (removed : removeFromQueue queue id addr = some (entry, rest)) :
    Exists fun before => Exists fun after => queue = before ++ entry :: after ∧ rest = before ++ after ∧
      ((entry.transactionId = id ∧ forall other, other ∈ before -> other.transactionId ≠ id) ∨
        ((forall other, other ∈ queue -> other.transactionId ≠ id) ∧ entry.destinationAddr = addr)) := by
  rw [removeFromQueue, Option.or_eq_some_iff] at removed
  rcases removed with byId | ⟨noId, byAddr⟩
  · rcases VecOps.removeFirst_eq_some.mp byId with ⟨before, after, split, restEq, passes, failing⟩
    refine ⟨before, after, split, restEq, Or.inl ⟨beq_iff_eq.mp passes, ?_⟩⟩
    exact fun other member => beq_eq_false_iff_ne.mp (failing other member)
  · rcases VecOps.removeFirst_eq_some.mp byAddr with ⟨before, after, split, restEq, passes, _⟩
    refine ⟨before, after, split, restEq, Or.inr ⟨?_, beq_iff_eq.mp passes⟩⟩
    exact fun other member => beq_eq_false_iff_ne.mp (VecOps.removeFirst_eq_none.mp noId other member)

theorem removeFromQueue_eq_none {queue : List OutstandingQuery} {id : BigEndian.Bytes}
    {addr : SocketAddr} :
    removeFromQueue queue id addr = none <->
      forall entry, entry ∈ queue -> entry.transactionId ≠ id ∧ entry.destinationAddr ≠ addr := by
  rw [removeFromQueue, Option.or_eq_none_iff, VecOps.removeFirst_eq_none, VecOps.removeFirst_eq_none]
  constructor
  · rintro ⟨noId, noAddr⟩ entry member
    exact ⟨beq_eq_false_iff_ne.mp (noId entry member), beq_eq_false_iff_ne.mp (noAddr entry member)⟩
  · intro neither
    exact ⟨fun entry member => beq_eq_false_iff_ne.mpr (neither entry member).1,
      fun entry member => beq_eq_false_iff_ne.mpr (neither entry member).2⟩

/-! ## The forms of a step -/

inductive Stepped (service : Service) (state : ServiceState) : ServiceAction -> ServiceState -> Prop where
  | start (query : Query) :
      Stepped service state (.start query)
        { state with calls := state.calls ++ [{ query := query, phase := .built, channel := .pending }] }
  | push {index : Nat} {call : Call} (found : state.calls[index]? = some call) (phase : call.phase = .built) :
      Stepped service state (.push index)
        { state with
          queue := state.queue ++ [OutstandingQuery.ofQuery call.query index]
          calls := state.calls.set index { call with phase := .sending } }
  | sent {index : Nat} {call : Call} {fault : Option SendFault} {packet : BigEndian.Bytes × SocketAddr}
      (found : state.calls[index]? = some call) (phase : call.phase = .sending)
      (sent : service.sendMessage (.query call.query) fault = some (.ok packet)) :
      Stepped service state (.send index fault)
        { state with calls := state.calls.set index { call with phase := .selecting } }
  | unsent {index : Nat} {call : Call} {fault : Option SendFault} {description : String}
      (found : state.calls[index]? = some call) (phase : call.phase = .sending)
      (failure : service.sendMessage (.query call.query) fault = some (.error description)) :
      Stepped service state (.send index fault)
        { state with calls := state.calls.set index (call.fails description) }
  | taken {result : QueryResult} {waiting : OutstandingQuery} {queue : List OutstandingQuery}
      (removed : removeFromQueue state.queue (QueryResult.base result).transactionId
        (QueryResult.base result).origin.addr = some (waiting, queue)) :
      Stepped service state (.receive result)
        { state with queue := queue, deliveries := state.deliveries ++ [(waiting.returnValue, result)] }
  | ignored {result : QueryResult}
      (removed : removeFromQueue state.queue (QueryResult.base result).transactionId
        (QueryResult.base result).origin.addr = none) :
      Stepped service state (.receive result) state
  | fulfil {index target : Nat} {result : QueryResult} (found : state.deliveries[index]? = some (target, result)) :
      Stepped service state (.fulfil index)
        { state with
          deliveries := state.deliveries.eraseIdx index
          calls := state.calls.modify target fun call => call.fulfilled result }
  | answered {index : Nat} {call : Call} {result : QueryResult} (found : state.calls[index]? = some call)
      (phase : call.phase = .selecting) (channel : call.channel = .value result) :
      Stepped service state (.answered index)
        { state with calls := state.calls.set index { call with phase := .returned (.received result) } }
  | disconnected {index : Nat} {call : Call} (found : state.calls[index]? = some call)
      (phase : call.phase = .selecting) (channel : call.channel = .closed) :
      Stepped service state (.answered index)
        { state with calls := state.calls.set index (call.fails "channel closed") }
  | expire {index : Nat} {call : Call} (found : state.calls[index]? = some call)
      (phase : call.phase = .selecting) :
      Stepped service state (.expire index)
        { state with calls := state.calls.set index { call with phase := .expired } }
  | timedOut {index : Nat} {call : Call} {removed : OutstandingQuery} {queue : List OutstandingQuery}
      (found : state.calls[index]? = some call) (phase : call.phase = .expired)
      (removal : removeFromQueue state.queue call.query.base.transactionId call.query.base.origin.addr =
        some (removed, queue)) :
      Stepped service state (.removeExpired index)
        { state with
          queue := queue
          calls := (state.calls.modify removed.returnValue Call.dropped).set index (call.fails "Timeout") }
  | timedOutAlone {index : Nat} {call : Call} (found : state.calls[index]? = some call)
      (phase : call.phase = .expired)
      (removal : removeFromQueue state.queue call.query.base.transactionId call.query.base.origin.addr = none) :
      Stepped service state (.removeExpired index)
        { state with calls := state.calls.set index (call.fails "Timeout") }

variable {service : Service} {state next : ServiceState} {action : ServiceAction}

theorem stepped_of_step (step : service.step state action = some next) :
    Stepped service state action next := by
  cases action with
  | start query =>
      cases step
      exact .start query
  | push index =>
      rcases Option.bind_eq_some_iff.mp step with ⟨call, found, step⟩
      cases phase : call.phase <;> rw [phase] at step <;> cases step
      exact .push found phase
  | send index fault =>
      rcases Option.bind_eq_some_iff.mp step with ⟨call, found, step⟩
      cases phase : call.phase <;> rw [phase] at step
      case sending =>
        rcases Option.map_eq_some_iff.mp step with ⟨outcome, sent, equal⟩
        cases outcome with
        | ok packet =>
            cases equal
            exact .sent found phase sent
        | error description =>
            cases equal
            exact .unsent found phase sent
      all_goals cases step
  | receive result =>
      unfold Service.step at step
      dsimp only at step
      cases removed : removeFromQueue state.queue (QueryResult.base result).transactionId
          (QueryResult.base result).origin.addr with
      | none =>
          rw [removed] at step
          cases step
          exact .ignored removed
      | some pair =>
          rw [removed] at step
          cases step
          exact .taken removed
  | fulfil index =>
      rcases Option.map_eq_some_iff.mp step with ⟨⟨target, result⟩, found, equal⟩
      cases equal
      exact .fulfil found
  | answered index =>
      rcases Option.bind_eq_some_iff.mp step with ⟨⟨query, phase, channel⟩, found, step⟩
      cases phase <;> cases channel <;> cases step
      · exact .answered found rfl rfl
      · exact .disconnected found rfl rfl
  | expire index =>
      rcases Option.bind_eq_some_iff.mp step with ⟨call, found, step⟩
      cases phase : call.phase <;> rw [phase] at step <;> cases step
      exact .expire found phase
  | removeExpired index =>
      rcases Option.bind_eq_some_iff.mp step with ⟨call, found, step⟩
      cases phase : call.phase <;> rw [phase] at step
      case expired =>
        dsimp only at step
        cases removal : removeFromQueue state.queue call.query.base.transactionId
            call.query.base.origin.addr with
        | none =>
            rw [removal] at step
            cases step
            exact .timedOutAlone found phase removal
        | some pair =>
            rw [removal] at step
            cases step
            exact .timedOut found phase removal
      all_goals cases step

/-- The list of forms is exact. -/
theorem Stepped.step (stepped : Stepped service state action next) :
    service.step state action = some next := by
  cases stepped with
  | start query => rfl
  | push found phase => simp only [Service.step, found, Option.bind_some, phase]
  | sent found phase sent => simp only [Service.step, found, Option.bind_some, phase, sent, Option.map_some]
  | unsent found phase failure =>
      simp only [Service.step, found, Option.bind_some, phase, failure, Option.map_some]
  | taken removed => simp only [Service.step, removed]
  | ignored removed => simp only [Service.step, removed]
  | fulfil found => simp only [Service.step, found, Option.map_some]
  | answered found phase channel => simp only [Service.step, found, Option.bind_some, phase, channel]
  | disconnected found phase channel => simp only [Service.step, found, Option.bind_some, phase, channel]
  | expire found phase => simp only [Service.step, found, Option.bind_some, phase]
  | timedOut found phase removal => simp only [Service.step, found, Option.bind_some, phase, removal]
  | timedOutAlone found phase removal => simp only [Service.step, found, Option.bind_some, phase, removal]

/-! ## The end of a call -/

/-- A packet that is handed over goes into its call, and no other call hears of it. -/
theorem Service.step_fulfil (service : Service) {index number : Nat} {call : Call} {result : QueryResult}
    (handed : state.deliveries[index]? = some (number, result)) (found : state.calls[number]? = some call) :
    Exists fun next => service.step state (.fulfil index) = some next ∧ next.queue = state.queue ∧
      next.calls[number]? = some (call.fulfilled result) ∧
      forall other, other ≠ number -> next.calls[other]? = state.calls[other]? := by
  refine ⟨_, (Stepped.fulfil handed).step, rfl, ?_, fun other different => ?_⟩
  · dsimp only
    rw [List.getElem?_modify, found]
    exact congrArg some (if_pos rfl)
  · exact List.getElem?_modify_ne _ _ different.symm

/-- A call that waits returns what it has been handed. -/
theorem Service.step_answered (service : Service) {number : Nat} {call : Call} {result : QueryResult}
    (found : state.calls[number]? = some (call.fulfilled result)) (sent : call.phase = .selecting) :
    Exists fun done => service.step state (.answered number) = some done ∧
      (Exists fun ended => done.calls[number]? = some ended ∧ ended.phase = .returned (.received result)) ∧
      forall other, other ≠ number -> done.calls[other]? = state.calls[other]? := by
  have listening : call.listening = true := by
    rw [Call.listening, sent]
  rw [Call.fulfilled, if_pos listening] at found
  refine ⟨_, (Stepped.answered found sent rfl).step,
    ⟨{ call with channel := .value result, phase := .returned (.received result) }, ?_, rfl⟩, fun other different => ?_⟩
  · exact List.getElem?_set_self (List.getElem?_eq_some_iff.mp found).1
  · exact List.getElem?_set_ne different.symm

/-! ## Calls keep their queries -/

/-- The call with this number exists and was made for this query. -/
def ServiceState.Asks (state : ServiceState) (index : Nat) (query : Query) : Prop :=
  Exists fun call => state.calls[index]? = some call ∧ call.query = query

theorem ServiceState.Asks.unique {index : Nat} {first second : Query} (left : state.Asks index first)
    (right : state.Asks index second) : first = second := by
  rcases left with ⟨call, found, rfl⟩
  rcases right with ⟨other, otherFound, rfl⟩
  rw [found, Option.some.injEq] at otherFound
  rw [otherFound]

private theorem asks_set {calls : List Call} {index target : Nat} {call changed old : Call}
    (found : calls[target]? = some old) (sameQuery : changed.query = old.query)
    (asked : calls[index]? = some call) :
    Exists fun later => (calls.set target changed)[index]? = some later ∧ later.query = call.query := by
  by_cases same : target = index
  · subst same
    rw [found, Option.some.injEq] at asked
    subst asked
    exact ⟨changed, List.getElem?_set_self (List.getElem?_eq_some_iff.mp found).1, sameQuery⟩
  · exact ⟨call, by rwa [List.getElem?_set_ne same], rfl⟩

private theorem asks_modify {calls : List Call} {index : Nat} {call : Call} {change : Call -> Call}
    (target : Nat) (sameQuery : forall call, (change call).query = call.query) (asked : calls[index]? = some call) :
    Exists fun later => (calls.modify target change)[index]? = some later ∧ later.query = call.query := by
  rw [List.getElem?_modify, asked]
  by_cases same : target = index
  · refine ⟨change call, ?_, sameQuery call⟩
    exact congrArg some (if_pos same)
  · refine ⟨call, ?_, rfl⟩
    exact congrArg some (if_neg same)

theorem Call.fulfilled_query (call : Call) (result : QueryResult) : (call.fulfilled result).query = call.query := by
  unfold Call.fulfilled
  split <;> rfl

theorem Call.dropped_query (call : Call) : call.dropped.query = call.query := by
  unfold Call.dropped
  split <;> rfl

theorem Call.fulfilled_phase (call : Call) (result : QueryResult) : (call.fulfilled result).phase = call.phase := by
  unfold Call.fulfilled
  split <;> rfl

theorem Call.dropped_phase (call : Call) : call.dropped.phase = call.phase := by
  unfold Call.dropped
  split <;> rfl

/-- Nobody hears that the sending end of an expired call is dropped. -/
theorem Call.dropped_of_expired {call : Call} (phase : call.phase = .expired) : call.dropped = call := by
  rw [Call.dropped, Call.listening, phase]
  exact if_neg Bool.false_ne_true

theorem Stepped.asks (stepped : Stepped service state action next) {index : Nat} {query : Query}
    (asked : state.Asks index query) : next.Asks index query := by
  rcases asked with ⟨call, found, rfl⟩
  cases stepped with
  | start query =>
      exact ⟨call, VecOps.getElem?_concat_of_some found _, rfl⟩
  | push target _ => exact asks_set target rfl found
  | sent target _ _ => exact asks_set target rfl found
  | unsent target _ _ => exact asks_set target rfl found
  | taken _ => exact ⟨call, found, rfl⟩
  | ignored _ => exact ⟨call, found, rfl⟩
  | fulfil _ => exact asks_modify _ (fun call => call.fulfilled_query _) found
  | answered target _ _ => exact asks_set target rfl found
  | disconnected target _ _ => exact asks_set target rfl found
  | expire target _ => exact asks_set target rfl found
  | @timedOut _ expired removed _ target _ _ =>
      rcases asks_modify removed.returnValue Call.dropped_query found with
        ⟨later, laterFound, laterQuery⟩
      rcases asks_modify removed.returnValue Call.dropped_query target with
        ⟨own, ownFound, ownQuery⟩
      have sameQuery : (expired.fails "Timeout").query = own.query := ownQuery.symm
      rcases asks_set ownFound sameQuery laterFound with ⟨last, lastFound, lastQuery⟩
      exact ⟨last, lastFound, lastQuery.trans laterQuery⟩
  | timedOutAlone target _ _ => exact asks_set target rfl found

/-- A call keeps its query for the rest of a run. -/
theorem asks_run {actions : List ServiceAction} {final : ServiceState} {index : Nat} {query : Query}
    (asked : state.Asks index query) (ran : PartialRun.run service.step state actions = some final) :
    final.Asks index query := by
  have kept : forall state action next, ServiceState.Asks state index query ->
      service.step state action = some next -> ServiceState.Asks next index query :=
    fun _ _ _ asked step => (stepped_of_step step).asks asked
  exact PartialRun.run_invariant kept asked ran

/-! ## Who holds the sending end of a channel -/

namespace ServiceState

/-- The calls whose sending end is in the queue or about to be used. -/
def owners (state : ServiceState) : List Nat :=
  state.queue.map OutstandingQuery.returnValue ++ state.deliveries.map Prod.fst

/-- Pushing an entry adds its call to the owners. -/
private theorem owners_pushed {calls : List Call} {entry : OutstandingQuery} :
    (owners ⟨state.queue ++ [entry], calls, state.deliveries⟩).Perm (entry.returnValue :: state.owners) := by
  rw [owners, List.map_append, List.append_assoc]
  exact List.perm_middle

/-- Taking an entry away leaves the other owners. -/
private theorem owners_removed {before after : List OutstandingQuery} {entry : OutstandingQuery}
    (split : state.queue = before ++ entry :: after) :
    state.owners.Perm
      (entry.returnValue ::
        ((before ++ after).map OutstandingQuery.returnValue ++ state.deliveries.map Prod.fst)) := by
  rw [owners, split, List.map_append, List.map_cons, List.map_append, List.append_assoc, List.append_assoc]
  exact List.perm_middle

/-- The invariant of the service. -/
structure Tracked (state : ServiceState) : Prop where
  entry : forall entry, entry ∈ state.queue ->
    Exists fun query => state.Asks entry.returnValue query ∧
      entry = OutstandingQuery.ofQuery query entry.returnValue
  owners_nodup : state.owners.Nodup
  owned : forall index, index ∈ state.owners ->
    Exists fun call => state.calls[index]? = some call ∧ call.phase ≠ .built ∧ call.channel = .pending
  waiting : forall (index : Nat) (call : Call), state.calls[index]? = some call -> call.listening = true ->
    call.channel = .pending -> call.phase = .built ∨ index ∈ state.owners
  built : forall (index : Nat) (call : Call), state.calls[index]? = some call -> call.phase = .built ->
    call.channel = .pending

theorem tracked_initial : initial.Tracked where
  entry := fun _ member => absurd member List.not_mem_nil
  owners_nodup := List.nodup_nil
  owned := fun _ member => absurd member List.not_mem_nil
  waiting := fun _ _ found => by cases found
  built := fun _ _ found => by cases found

variable {index : Nat} {call changed : Call}

theorem Tracked.queue_nodup (tracked : state.Tracked) : (state.queue.map OutstandingQuery.returnValue).Nodup :=
  (List.nodup_append.mp tracked.owners_nodup).1

/-- The entry of a call carries what its query determines. -/
theorem Tracked.own_entry (tracked : state.Tracked) {entry : OutstandingQuery} (member : entry ∈ state.queue)
    (found : state.calls[entry.returnValue]? = some call) :
    entry = OutstandingQuery.ofQuery call.query entry.returnValue := by
  rcases tracked.entry entry member with ⟨query, asks, entryEq⟩
  have same : query = call.query := asks.unique ⟨call, found, rfl⟩
  rwa [same] at entryEq

/-- A call that was already pushed moves on, and nobody else is concerned. -/
theorem Tracked.settle (tracked : state.Tracked) (found : state.calls[index]? = some call)
    (sameQuery : changed.query = call.query) (sameChannel : changed.channel = call.channel)
    (pushed : call.phase ≠ .built) (stillPushed : changed.phase ≠ .built)
    (listened : changed.listening = true -> call.listening = true) :
    Tracked { state with calls := state.calls.set index changed } where
  entry := by
    intro entry member
    rcases tracked.entry entry member with ⟨query, ⟨asking, asked, rfl⟩, entryEq⟩
    rcases asks_set found sameQuery asked with ⟨later, laterFound, laterQuery⟩
    exact ⟨asking.query, ⟨later, laterFound, laterQuery⟩, entryEq⟩
  owners_nodup := tracked.owners_nodup
  owned := by
    intro other member
    rcases tracked.owned other member with ⟨owner, ownerFound, ownerPushed, ownerPending⟩
    by_cases same : index = other
    · subst same
      rw [found, Option.some.injEq] at ownerFound
      subst ownerFound
      exact ⟨changed, List.getElem?_set_self (List.getElem?_eq_some_iff.mp found).1, stillPushed,
        sameChannel.trans ownerPending⟩
    · exact ⟨owner, by rwa [List.getElem?_set_ne same], ownerPushed, ownerPending⟩
  waiting := by
    intro other later laterFound listening pending
    rcases VecOps.getElem?_set_cases laterFound with ⟨rfl, rfl⟩ | ⟨_, old⟩
    · rw [sameChannel] at pending
      exact Or.inr ((tracked.waiting _ call found (listened listening) pending).resolve_left pushed)
    · exact tracked.waiting other later old listening pending
  built := by
    intro other later laterFound unpushed
    rcases VecOps.getElem?_set_cases laterFound with ⟨rfl, rfl⟩ | ⟨_, old⟩
    · exact absurd unpushed stillPushed
    · exact tracked.built other later old unpushed

/-- A call that was already pushed stops listening. -/
theorem Tracked.retire (tracked : state.Tracked) (found : state.calls[index]? = some call)
    (sameQuery : changed.query = call.query) (sameChannel : changed.channel = call.channel)
    (pushed : call.phase ≠ .built) (deaf : changed.listening = false) :
    Tracked { state with calls := state.calls.set index changed } := by
  refine tracked.settle found sameQuery sameChannel pushed ?_ fun listening => ?_
  · intro built
    rw [Call.listening, built] at deaf
    cases deaf
  · rw [deaf] at listening
    cases listening

/-- A new call is built. -/
theorem Tracked.start (tracked : state.Tracked) (query : Query) :
    Tracked { state with
      calls := state.calls ++ [{ query := query, phase := .built, channel := .pending }] } where
  entry := by
    intro entry member
    rcases tracked.entry entry member with ⟨asked, ⟨asking, found, same⟩, entryEq⟩
    exact ⟨asked, ⟨asking, VecOps.getElem?_concat_of_some found _, same⟩, entryEq⟩
  owners_nodup := tracked.owners_nodup
  owned := by
    intro other member
    rcases tracked.owned other member with ⟨owner, found, pushed, pending⟩
    exact ⟨owner, VecOps.getElem?_concat_of_some found _, pushed, pending⟩
  waiting := by
    intro other later found listening pending
    rcases VecOps.getElem?_concat_cases found with old | ⟨_, rfl⟩
    · exact tracked.waiting other later old listening pending
    · exact Or.inl rfl
  built := by
    intro other later found unpushed
    rcases VecOps.getElem?_concat_cases found with old | ⟨_, rfl⟩
    · exact tracked.built other later old unpushed
    · rfl

/-- A built call pushes its entry, which nobody has pushed for it before. -/
theorem Tracked.push (tracked : state.Tracked) (found : state.calls[index]? = some call)
    (phase : call.phase = .built) :
    Tracked { state with
      queue := state.queue ++ [OutstandingQuery.ofQuery call.query index]
      calls := state.calls.set index { call with phase := .sending } } where
  entry := by
    intro entry member
    rcases List.mem_append.mp member with old | new
    · rcases tracked.entry entry old with ⟨asked, ⟨asking, askingFound, rfl⟩, entryEq⟩
      have sameQuery : { call with phase := Phase.sending }.query = call.query := rfl
      rcases asks_set found sameQuery askingFound with ⟨later, laterFound, laterQuery⟩
      exact ⟨asking.query, ⟨later, laterFound, laterQuery⟩, entryEq⟩
    · cases List.mem_singleton.mp new
      refine ⟨call.query, ⟨{ call with phase := .sending }, ?_, rfl⟩, rfl⟩
      exact List.getElem?_set_self (List.getElem?_eq_some_iff.mp found).1
  owners_nodup := by
    have fresh : index ∉ state.owners := by
      intro member
      rcases tracked.owned index member with ⟨owner, ownerFound, pushed, _⟩
      rw [found, Option.some.injEq] at ownerFound
      exact pushed (ownerFound ▸ phase)
    exact owners_pushed.nodup_iff.mpr (List.nodup_cons.mpr ⟨fresh, tracked.owners_nodup⟩)
  owned := by
    intro other member
    have unchanged := tracked.built index call found phase
    by_cases same : index = other
    · subst same
      refine ⟨{ call with phase := .sending }, ?_, ?_, unchanged⟩
      · exact List.getElem?_set_self (List.getElem?_eq_some_iff.mp found).1
      · simp
    · rcases List.mem_cons.mp (owners_pushed.mem_iff.mp member) with rfl | old
      · exact absurd rfl same
      · rcases tracked.owned other old with ⟨owner, ownerFound, pushed, pending⟩
        exact ⟨owner, by rwa [List.getElem?_set_ne same], pushed, pending⟩
  waiting := by
    intro other later laterFound listening pending
    rcases VecOps.getElem?_set_cases laterFound with ⟨rfl, rfl⟩ | ⟨_, old⟩
    · exact Or.inr (owners_pushed.mem_iff.mpr List.mem_cons_self)
    · rcases tracked.waiting other later old listening pending with unpushed | member
      · exact Or.inl unpushed
      · exact Or.inr (owners_pushed.mem_iff.mpr (List.mem_cons_of_mem _ member))
  built := by
    intro other later laterFound unpushed
    rcases VecOps.getElem?_set_cases laterFound with ⟨rfl, rfl⟩ | ⟨_, old⟩
    · cases unpushed
    · exact tracked.built other later old unpushed

/-- A sending end passes from the queue to a packet. -/
theorem Tracked.pass (tracked : state.Tracked) {queue : List OutstandingQuery}
    {deliveries : List (Nat × QueryResult)} (fewer : forall entry, entry ∈ queue -> entry ∈ state.queue)
    (perm : state.owners.Perm (queue.map OutstandingQuery.returnValue ++ deliveries.map Prod.fst)) :
    Tracked { state with queue := queue, deliveries := deliveries } where
  entry := fun entry member => tracked.entry entry (fewer entry member)
  owners_nodup := perm.nodup_iff.mp tracked.owners_nodup
  owned := fun other member => tracked.owned other (perm.mem_iff.mpr member)
  waiting := fun other later found listening pending =>
    (tracked.waiting other later found listening pending).imp_right perm.mem_iff.mp
  built := tracked.built

/-- The holder of a sending end uses it or drops it. -/
theorem Tracked.release (tracked : state.Tracked) {target : Nat} {queue : List OutstandingQuery}
    {deliveries : List (Nat × QueryResult)} {change : Call -> Call}
    (fewer : forall entry, entry ∈ queue -> entry ∈ state.queue)
    (perm : state.owners.Perm
      (target :: (queue.map OutstandingQuery.returnValue ++ deliveries.map Prod.fst)))
    (sameQuery : forall call, (change call).query = call.query)
    (samePhase : forall call, (change call).phase = call.phase)
    (used : forall call, call.listening = true -> (change call).channel ≠ .pending) :
    Tracked ⟨queue, state.calls.modify target change, deliveries⟩ where
  entry := by
    intro entry member
    rcases tracked.entry entry (fewer entry member) with ⟨query, ⟨asking, asked, rfl⟩, entryEq⟩
    rcases asks_modify target sameQuery asked with ⟨later, laterFound, laterQuery⟩
    exact ⟨asking.query, ⟨later, laterFound, laterQuery⟩, entryEq⟩
  owners_nodup := (List.nodup_cons.mp (perm.nodup_iff.mp tracked.owners_nodup)).2
  owned := by
    intro other member
    have different : target ≠ other := by
      rintro rfl
      exact (List.nodup_cons.mp (perm.nodup_iff.mp tracked.owners_nodup)).1 member
    rcases tracked.owned other (perm.mem_iff.mpr (List.mem_cons_of_mem _ member)) with
      ⟨owner, ownerFound, pushed, pending⟩
    refine ⟨owner, ?_, pushed, pending⟩
    rw [List.getElem?_modify, ownerFound]
    exact congrArg some (if_neg different)
  waiting := by
    intro other later laterFound listening pending
    rcases VecOps.getElem?_modify_cases laterFound with ⟨before, beforeFound, ⟨rfl, rfl⟩ | ⟨different, rfl⟩⟩
    · have wasListening : before.listening = true := by
        rwa [Call.listening, samePhase] at listening
      exact absurd pending (used before wasListening)
    · rcases tracked.waiting other later beforeFound listening pending with unpushed | member
      · exact Or.inl unpushed
      · refine Or.inr ((List.mem_cons.mp (perm.mem_iff.mp member)).resolve_left ?_)
        exact fun same => different same.symm
  built := by
    intro other later laterFound unpushed
    rcases VecOps.getElem?_modify_cases laterFound with ⟨before, beforeFound, ⟨rfl, rfl⟩ | ⟨_, rfl⟩⟩
    · rw [samePhase] at unpushed
      rcases tracked.owned target (perm.mem_iff.mpr List.mem_cons_self) with
        ⟨owner, ownerFound, pushed, _⟩
      rw [beforeFound, Option.some.injEq] at ownerFound
      exact absurd (ownerFound ▸ unpushed) pushed
    · exact tracked.built other later beforeFound unpushed

end ServiceState

/-- The step lemma. -/
theorem Stepped.tracked (stepped : Stepped service state action next) (tracked : state.Tracked) :
    next.Tracked := by
  cases stepped with
  | start query => exact tracked.start query
  | push found phase => exact tracked.push found phase
  | sent found phase _ =>
      refine tracked.settle found rfl rfl (by simp [phase]) (by simp) fun _ => ?_
      rw [Call.listening, phase]
  | unsent found phase _ | answered found phase _ | disconnected found phase _ | expire found phase
  | timedOutAlone found phase _ => exact tracked.retire found rfl rfl (by simp [phase]) rfl
  | taken removed =>
      rcases removeFromQueue_eq_some removed with ⟨before, after, split, rfl, _⟩
      refine tracked.pass ?_ ((ServiceState.owners_removed split).trans ?_)
      · exact fun entry member => VecOps.mem_of_mem_split split member
      · rw [List.map_append, List.map_append, List.map_singleton, <- List.append_assoc]
        exact (List.perm_append_singleton _ _).symm
  | ignored _ => exact tracked
  | @fulfil index target result found =>
      refine tracked.release (fun _ member => member) ?_ (fun call => call.fulfilled_query result)
        (fun call => call.fulfilled_phase result) fun call listening => ?_
      · rcases List.getElem?_eq_some_iff.mp found with ⟨bound, there⟩
        have front := (List.getElem_cons_eraseIdx_perm bound).symm.map Prod.fst
        rw [there] at front
        exact (front.append_left _).trans List.perm_middle
      · simp [Call.fulfilled, listening]
  | timedOut found phase removal =>
      rcases removeFromQueue_eq_some removal with ⟨before, after, split, rfl, _⟩
      have used : forall call : Call, call.listening = true -> call.dropped.channel ≠ .pending := by
        intro call listening
        simp [Call.dropped, listening]
      have released := tracked.release (fun _ member => VecOps.mem_of_mem_split split member)
        (ServiceState.owners_removed split) Call.dropped_query Call.dropped_phase used
      have deaf := Call.dropped_of_expired phase
      exact released.retire (VecOps.getElem?_modify_of_fixed _ found deaf) rfl rfl (by simp [phase]) rfl

theorem tracked_step {state next : ServiceState} {action : ServiceAction} (tracked : state.Tracked)
    (step : service.step state action = some next) : next.Tracked :=
  (stepped_of_step step).tracked tracked

/-- The run lemma. -/
theorem tracked_run {actions : List ServiceAction} {final : ServiceState}
    (ran : service.run actions = some final) : final.Tracked :=
  PartialRun.run_invariant (fun _ _ _ tracked step => tracked_step tracked step)
    ServiceState.tracked_initial ran

/-! ## What never comes back -/

/-- The call has an entry in the queue. -/
def ServiceState.Queued (state : ServiceState) (index : Nat) : Prop :=
  index ∈ state.queue.map OutstandingQuery.returnValue

/-- What is queued after an entry was taken was queued before. -/
theorem queued_of_rest {before after : List OutstandingQuery} {entry : OutstandingQuery} {index : Nat}
    (split : state.queue = before ++ entry :: after)
    (queued : index ∈ (before ++ after).map OutstandingQuery.returnValue) : state.Queued index := by
  rcases List.mem_map.mp queued with ⟨other, member, rfl⟩
  exact List.mem_map_of_mem (VecOps.mem_of_mem_split split member)

/-- Only a push puts an entry into the queue. -/
theorem Stepped.queued (stepped : Stepped service state action next) {index : Nat} (queued : next.Queued index) :
    state.Queued index ∨ Exists fun call => state.calls[index]? = some call ∧ call.phase = .built := by
  cases stepped with
  | @push target call found phase =>
      rw [ServiceState.Queued, List.map_append] at queued
      rcases List.mem_append.mp queued with old | new
      · exact Or.inl old
      · cases List.mem_singleton.mp new
        exact Or.inr ⟨call, found, phase⟩
  | taken removed =>
      rcases removeFromQueue_eq_some removed with ⟨before, after, split, rfl, _⟩
      exact Or.inl (queued_of_rest split queued)
  | timedOut _ _ removal =>
      rcases removeFromQueue_eq_some removal with ⟨before, after, split, rfl, _⟩
      exact Or.inl (queued_of_rest split queued)
  | _ => exact Or.inl queued

private theorem built_of_set {calls : List Call} {index target : Nat} {call changed : Call}
    (found : (calls.set target changed)[index]? = some call) (unpushed : call.phase = .built)
    (moved : changed.phase ≠ .built) : calls[index]? = some call := by
  rcases VecOps.getElem?_set_cases found with ⟨_, rfl⟩ | ⟨_, old⟩
  · exact absurd unpushed moved
  · exact old

private theorem built_of_modify {calls : List Call} {index target : Nat} {call : Call} {change : Call -> Call}
    (samePhase : forall call, (change call).phase = call.phase)
    (found : (calls.modify target change)[index]? = some call) (unpushed : call.phase = .built) :
    Exists fun old => calls[index]? = some old ∧ old.phase = .built := by
  rcases VecOps.getElem?_modify_cases found with ⟨old, oldFound, ⟨_, rfl⟩ | ⟨_, rfl⟩⟩
  · exact ⟨old, oldFound, (samePhase old).symm.trans unpushed⟩
  · exact ⟨call, oldFound, unpushed⟩

/-- A call that is not pushed yet is new, or was not pushed before. -/
theorem Stepped.built (stepped : Stepped service state action next) {index : Nat} {call : Call}
    (found : next.calls[index]? = some call) (unpushed : call.phase = .built) :
    index = state.calls.length ∨
      Exists fun old => state.calls[index]? = some old ∧ old.phase = .built := by
  cases stepped with
  | start query =>
      rcases VecOps.getElem?_concat_cases found with old | ⟨last, _⟩
      · exact Or.inr ⟨call, old, unpushed⟩
      · exact Or.inl last
  | taken _ => exact Or.inr ⟨call, found, unpushed⟩
  | ignored _ => exact Or.inr ⟨call, found, unpushed⟩
  | @fulfil _ _ result _ => exact Or.inr (built_of_modify (fun call => call.fulfilled_phase result) found unpushed)
  | timedOut _ _ _ =>
      have old := built_of_set found unpushed (by simp [Call.fails])
      exact Or.inr (built_of_modify Call.dropped_phase old unpushed)
  | _ => exact Or.inr ⟨call, built_of_set found unpushed (by simp [Call.fails]), unpushed⟩

private theorem returned_of_set {calls : List Call} {index target : Nat} {call old changed : Call}
    {outcome : Outcome} (targetFound : calls[target]? = some old)
    (active : forall outcome, old.phase ≠ .returned outcome) (found : calls[index]? = some call)
    (returned : call.phase = .returned outcome) :
    Exists fun later => (calls.set target changed)[index]? = some later ∧ later.phase = .returned outcome := by
  have different : target ≠ index := by
    rintro rfl
    rw [found, Option.some.injEq] at targetFound
    exact active outcome (targetFound ▸ returned)
  exact ⟨call, by rwa [List.getElem?_set_ne different], returned⟩

private theorem returned_of_modify {calls : List Call} {index : Nat} {call : Call} {change : Call -> Call}
    {outcome : Outcome} (target : Nat) (samePhase : forall call, (change call).phase = call.phase)
    (found : calls[index]? = some call) (returned : call.phase = .returned outcome) :
    Exists fun later => (calls.modify target change)[index]? = some later ∧ later.phase = .returned outcome := by
  rw [List.getElem?_modify, found]
  by_cases same : target = index
  · exact ⟨change call, congrArg some (if_pos same), (samePhase call).trans returned⟩
  · exact ⟨call, congrArg some (if_neg same), returned⟩

/-- A call returns once. -/
theorem Stepped.returned (stepped : Stepped service state action next) {index : Nat} {call : Call}
    {outcome : Outcome} (found : state.calls[index]? = some call) (returned : call.phase = .returned outcome) :
    Exists fun later => next.calls[index]? = some later ∧ later.phase = .returned outcome := by
  cases stepped with
  | start query => exact ⟨call, VecOps.getElem?_concat_of_some found _, returned⟩
  | taken _ => exact ⟨call, found, returned⟩
  | ignored _ => exact ⟨call, found, returned⟩
  | @fulfil _ _ result _ => exact returned_of_modify _ (fun call => call.fulfilled_phase result) found returned
  | @timedOut _ expired removed _ target phase _ =>
      rcases returned_of_modify removed.returnValue Call.dropped_phase found returned with
        ⟨later, laterFound, laterReturned⟩
      have deaf := VecOps.getElem?_modify_of_fixed removed.returnValue target (Call.dropped_of_expired phase)
      exact returned_of_set deaf (by simp [phase]) laterFound laterReturned
  | push target phase | sent target phase _ | unsent target phase _ | answered target phase _
  | disconnected target phase _ | expire target phase | timedOutAlone target phase _ =>
      exact returned_of_set target (by simp [phase]) found returned

/-- Only a new query adds a call. -/
theorem Stepped.length_calls (stepped : Stepped service state action next) :
    next.calls.length = state.calls.length ∨
      Exists fun query => action = .start query ∧ next.calls.length = state.calls.length + 1 := by
  cases stepped with
  | start query => exact Or.inr ⟨query, rfl, List.length_append⟩
  | taken _ => exact Or.inl rfl
  | ignored _ => exact Or.inl rfl
  | fulfil _ => exact Or.inl (List.length_modify _ _ _)
  | timedOut _ _ _ => exact Or.inl (List.length_set.trans (List.length_modify _ _ _))
  | _ => exact Or.inl List.length_set

end DhtExplorer
