import DhtExplorer.OutstandingQueries

namespace DhtExplorer

/-!
# When the queue holds exactly the calls in progress

An entry is pushed before the packet is sent, and every way back from a call has
to take it out again.  A failed send does not, and a timeout may take an older
entry with the same transaction id instead.  The conditions below are about the
state and the action alone, and they are exact.
-/

variable {service : Service} {state next : ServiceState} {action : ServiceAction}

/-- Pushed, and not returned yet. -/
def Call.inProgress (self : Call) : Bool :=
  match self.phase with
  | .sending | .selecting | .expired => true
  | .built | .returned _ => false

/-- Every entry belongs to a call in progress, and every call that still listens
for an answer nobody has received has its entry. -/
structure ServiceState.Exact (state : ServiceState) : Prop where
  inProgress : forall index, state.Queued index ->
    Exists fun call => state.calls[index]? = some call ∧ call.inProgress = true
  present : forall (index : Nat) (call : Call), state.calls[index]? = some call -> call.phase ≠ .built ->
    call.listening = true -> call.channel = .pending ->
    (forall result, (index, result) ∉ state.deliveries) -> state.Queued index

/-! ## The conditions -/

/-- The four ways in which a query is not sent: no handler for the answers it
offers to give, no destination but the node itself, the encoder, the socket. -/
def Service.SendFails (self : Service) (query : Query) (fault : Option SendFault) : Prop :=
  (query.base.readOnly = false ∧ self.queriesInbound = false) ∨
    query.base.destination.toSocketAddr = none ∨ fault ≠ none

/-- A read-only query to an address fails at the socket, or not at all. -/
theorem Service.sendable (self : Service) {query : Query} {addr : SocketAddr} (readOnly : query.base.readOnly = true)
    (destination : query.base.destination = .addr addr) : ¬self.SendFails query none := by
  rintro (⟨writable, _⟩ | noDestination | faulty)
  · rw [readOnly] at writable
    cases writable
  · rw [destination] at noDestination
    cases noDestination
  · exact faulty rfl

/-- A call with its entry in the queue is sent, and at its timeout no earlier
entry has its transaction id. -/
def Service.LeavesNothing (self : Service) (state : ServiceState) : ServiceAction -> Prop
  | .send index fault =>
      forall call, state.calls[index]? = some call -> call.phase = .sending -> state.Queued index ->
        ¬self.SendFails call.query fault
  | .removeExpired index =>
      forall call, state.calls[index]? = some call -> call.phase = .expired -> state.Queued index ->
        Exists fun own => firstWithId state.queue call.query.base.transactionId = some own ∧
          own.returnValue = index
  | _ => True

/-- A query can always be written. -/
theorem Message.toBytes_query (bencode : Bencode.Codec) (query : Query) :
    Exists fun bytes => (Message.query query).toBytes bencode = some bytes := by
  rcases query with ⟨method, base⟩
  cases method <;> exact ⟨_, rfl⟩

/-- Sending a query fails in these ways, and returns otherwise. -/
theorem Service.sendMessage_query (self : Service) (query : Query) (fault : Option SendFault) :
    (self.SendFails query fault ∧
      Exists fun description => self.sendMessage (.query query) fault = some (.error description)) ∨
    (¬self.SendFails query fault ∧
      Exists fun packet => self.sendMessage (.query query) fault = some (.ok packet)) := by
  have guard : (!(Message.query query).base.readOnly && !self.queriesInbound) = true <->
      query.base.readOnly = false ∧ self.queriesInbound = false := by
    simp only [Message.base, Bool.and_eq_true, Bool.not_eq_true']
  rcases Message.toBytes_query self.bencode query with ⟨bytes, written⟩
  unfold sendMessage
  by_cases unhandled : query.base.readOnly = false ∧ self.queriesInbound = false
  · refine Or.inl ⟨Or.inl unhandled, ?_⟩
    rw [if_pos (guard.mpr unhandled)]
    exact ⟨_, rfl⟩
  · rw [if_neg (mt guard.mp unhandled), written]
    cases fault with
    | some fault =>
        refine Or.inl ⟨Or.inr (Or.inr (Option.some_ne_none fault)), ?_⟩
        cases fault with
        | encoding cause => exact ⟨_, rfl⟩
        | socket cause =>
            cases destination : query.base.destination.toSocketAddr <;>
            · simp only [Message.base, destination, Option.map_some]
              exact ⟨_, rfl⟩
    | none =>
        cases destination : query.base.destination.toSocketAddr with
        | none =>
            refine Or.inl ⟨Or.inr (Or.inl destination), ?_⟩
            simp only [Message.base, destination, Option.map_some]
            exact ⟨_, rfl⟩
        | some addr =>
            refine Or.inr ⟨?_, ?_⟩
            · rintro (handlerless | noDestination | faulty)
              · exact unhandled handlerless
              · rw [destination] at noDestination
                cases noDestination
              · exact faulty rfl
            · simp only [Message.base, destination, Option.map_some]
              exact ⟨_, rfl⟩

/-! ## One step -/

namespace ServiceState

/-- Without leftover entries the queue is exact: whoever still listens is owned. -/
theorem exact_of_inProgress (tracked : state.Tracked)
    (inProgress : forall index, state.Queued index ->
      Exists fun call => state.calls[index]? = some call ∧ call.inProgress = true) : state.Exact where
  inProgress := inProgress
  present := by
    intro index call found pushed listening pending undelivered
    rcases tracked.waiting index call found listening pending with unpushed | owned
    · exact absurd unpushed pushed
    · rcases List.mem_append.mp owned with queued | delivered
      · exact queued
      · rcases List.mem_map.mp delivered with ⟨⟨target, result⟩, member, rfl⟩
        exact absurd member (undelivered result)

/-- A call moves on.  When it returns, its entry must have left the queue. -/
private theorem Exact.inProgress_set {queue : List OutstandingQuery} {index : Nat} {call changed : Call}
    (exact' : state.Exact) (found : state.calls[index]? = some call)
    (fewer : forall other, other ∈ queue.map OutstandingQuery.returnValue -> state.Queued other)
    (done : changed.inProgress = false -> index ∉ queue.map OutstandingQuery.returnValue)
    (other : Nat) (queued : other ∈ queue.map OutstandingQuery.returnValue) :
    Exists fun later => (state.calls.set index changed)[other]? = some later ∧ later.inProgress = true := by
  by_cases same : index = other
  · subst same
    refine ⟨changed, List.getElem?_set_self (List.getElem?_eq_some_iff.mp found).1, ?_⟩
    exact Bool.not_eq_false _ |>.mp fun returned => done returned queued
  · rw [List.getElem?_set_ne same]
    exact exact'.inProgress other (fewer other queued)

private theorem Exact.inProgress_modify {queue : List OutstandingQuery} {target : Nat} {change : Call -> Call}
    (exact' : state.Exact) (samePhase : forall call, (change call).phase = call.phase)
    (fewer : forall other, other ∈ queue.map OutstandingQuery.returnValue -> state.Queued other)
    (other : Nat) (queued : other ∈ queue.map OutstandingQuery.returnValue) :
    Exists fun later => (state.calls.modify target change)[other]? = some later ∧ later.inProgress = true := by
  rcases exact'.inProgress other (fewer other queued) with ⟨call, found, inProgress⟩
  rw [List.getElem?_modify, found]
  by_cases same : target = other
  · refine ⟨change call, congrArg some (if_pos same), ?_⟩
    rw [Call.inProgress, samePhase]
    exact inProgress
  · exact ⟨call, congrArg some (if_neg same), inProgress⟩

end ServiceState

/-- A call whose channel is settled has no entry any more. -/
private theorem not_queued_of_settled {index : Nat} {call : Call} (tracked : state.Tracked)
    (found : state.calls[index]? = some call) (settled : call.channel ≠ .pending) : ¬state.Queued index := by
  intro queued
  rcases tracked.owned index (List.mem_append_left _ queued) with ⟨owner, ownerFound, _, pending⟩
  rw [found, Option.some.injEq] at ownerFound
  exact settled (ownerFound ▸ pending)

/-- When the call's own entry is first, its timeout takes that entry away. -/
private theorem not_queued_after_timeout {index : Nat} {call : Call} {removed : OutstandingQuery}
    {rest : List OutstandingQuery} (tracked : state.Tracked) (found : state.calls[index]? = some call)
    (phase : call.phase = .expired)
    (removal : removeFromQueue state.queue call.query.base.transactionId call.query.base.origin.addr =
      some (removed, rest))
    (permitted : service.LeavesNothing state (.removeExpired index)) :
    index ∉ rest.map OutstandingQuery.returnValue := by
  intro queued
  rcases removeFromQueue_eq_some removal with ⟨before, after, split, rfl, _⟩
  rcases permitted call found phase (queued_of_rest split queued) with ⟨own, first, rfl⟩
  rcases removeFromQueue_of_first first call.query.base.origin.addr with ⟨front, back, splitOwn, taken⟩
  rw [removal, Option.some.injEq, Prod.mk.injEq] at taken
  have unique := tracked.queue_nodup
  rw [splitOwn, List.map_append, List.map_cons] at unique
  rw [taken.2, List.map_append] at queued
  exact (List.nodup_cons.mp (List.perm_middle.nodup_iff.mp unique)).1 queued

/-- Permitted steps keep the queue exact. -/
theorem Stepped.exact (stepped : Stepped service state action next) (tracked : state.Tracked)
    (exact' : state.Exact) (permitted : service.LeavesNothing state action) : next.Exact := by
  apply ServiceState.exact_of_inProgress (stepped.tracked tracked)
  cases stepped with
  | start query =>
      intro index queued
      rcases exact'.inProgress index queued with ⟨call, found, inProgress⟩
      exact ⟨call, VecOps.getElem?_concat_of_some found _, inProgress⟩
  | @push index call found phase =>
      intro other queued
      by_cases same : index = other
      · subst same
        exact ⟨_, List.getElem?_set_self (List.getElem?_eq_some_iff.mp found).1, rfl⟩
      · rw [List.getElem?_set_ne same]
        rw [ServiceState.Queued, List.map_append] at queued
        rcases List.mem_append.mp queued with old | new
        · exact exact'.inProgress other old
        · exact absurd (List.mem_singleton.mp new).symm same
  | sent found _ _ | expire found _ =>
      exact exact'.inProgress_set found (fun _ queued => queued) (by simp [Call.inProgress])
  | @unsent index call fault description found phase failure =>
      apply exact'.inProgress_set found (fun _ queued => queued)
      intro _ queued
      rcases service.sendMessage_query call.query fault with ⟨fails, _⟩ | ⟨_, packet, sent⟩
      · exact permitted call found phase queued fails
      · rw [failure] at sent
        cases sent
  | taken removed =>
      intro index queued
      rcases removeFromQueue_eq_some removed with ⟨before, after, split, rfl, _⟩
      exact exact'.inProgress index (queued_of_rest split queued)
  | ignored _ => exact exact'.inProgress
  | @fulfil _ _ result _ =>
      exact exact'.inProgress_modify (fun call => call.fulfilled_phase result) fun _ queued => queued
  | answered found _ channel | disconnected found _ channel =>
      have absent := not_queued_of_settled tracked found (by simp [channel])
      exact exact'.inProgress_set found (fun _ queued => queued) fun _ => absent
  | @timedOut index call removed rest found phase removal =>
      intro other queued
      rcases removeFromQueue_eq_some removal with ⟨before, after, split, rfl, _⟩
      have different : index ≠ other := by
        rintro rfl
        exact not_queued_after_timeout tracked found phase removal permitted queued
      rw [List.getElem?_set_ne different]
      exact exact'.inProgress_modify Call.dropped_phase (fun _ => queued_of_rest split) other queued
  | @timedOutAlone index call found _ removal =>
      apply exact'.inProgress_set found (fun _ queued => queued)
      intro _ queued
      rcases List.mem_map.mp queued with ⟨entry, member, rfl⟩
      have sameId := congrArg OutstandingQuery.transactionId (tracked.own_entry member found)
      exact (removeFromQueue_eq_none.mp removal entry member).1 sameId

/-- A step that is not permitted leaves the entry of a call that has returned. -/
theorem permitted_of_exact_next (tracked : state.Tracked)
    (kept : forall next, service.step state action = some next -> next.Exact) :
    service.LeavesNothing state action := by
  cases action with
  | send index fault =>
      intro call found phase queued fails
      rcases service.sendMessage_query call.query fault with ⟨_, description, failure⟩ | ⟨sent, _⟩
      · rcases (kept _ (Stepped.unsent found phase failure).step).inProgress index queued with
          ⟨later, laterFound, inProgress⟩
        rw [List.getElem?_set_self (List.getElem?_eq_some_iff.mp found).1, Option.some.injEq] at laterFound
        subst laterFound
        cases inProgress
      · exact sent fails
  | removeExpired index =>
      intro call found phase queued
      rcases List.mem_map.mp queued with ⟨entry, member, rfl⟩
      have sameId := congrArg OutstandingQuery.transactionId (tracked.own_entry member found)
      cases first : firstWithId state.queue call.query.base.transactionId with
      | none => exact absurd (beq_iff_eq.mpr sameId) (List.find?_eq_none.mp first entry member)
      | some own =>
          refine ⟨own, rfl, ?_⟩
          by_contra different
          rcases removeFromQueue_of_first first call.query.base.origin.addr with ⟨before, after, split, removal⟩
          have stays : entry ∈ before ++ after := by
            rw [split, List.mem_append, List.mem_cons] at member
            rcases member with left | rfl | right
            · exact List.mem_append_left _ left
            · exact absurd rfl different
            · exact List.mem_append_right _ right
          rcases (kept _ (Stepped.timedOut found phase removal).step).inProgress entry.returnValue
              (List.mem_map_of_mem stays) with ⟨later, laterFound, inProgress⟩
          have bound := (List.getElem?_eq_some_iff.mp found).1
          rw [List.getElem?_set_self (by rwa [List.length_modify]), Option.some.injEq] at laterFound
          subst laterFound
          cases inProgress
  | _ => trivial

/-- The queue holds exactly the calls in progress in every state of a run,
exactly when every step of the run is permitted. -/
theorem queue_exact_iff (service : Service) (actions : List ServiceAction) :
    PartialRun.Always service.step ServiceState.Exact ServiceState.initial actions <->
      PartialRun.Permitted service.step service.LeavesNothing ServiceState.initial actions := by
  have agree : forall state action, ServiceState.Tracked state -> ServiceState.Exact state ->
      (service.LeavesNothing state action <->
        forall next, service.step state action = some next -> ServiceState.Exact next) := by
    intro state action tracked exact'
    refine ⟨fun permitted next step => ?_, permitted_of_exact_next tracked⟩
    exact (stepped_of_step step).exact tracked exact' permitted
  have initially : ServiceState.initial.Exact := by
    apply ServiceState.exact_of_inProgress ServiceState.tracked_initial
    intro _ queued
    cases queued
  exact PartialRun.always_iff_permitted (fun _ _ _ tracked step => tracked_step tracked step) agree
    ServiceState.tracked_initial initially

/-- A query without a handler for the answers it offers is never sent, and its
entry stays in the queue after the call has returned. -/
theorem unsent_query_stays_queued :
    Exists fun query => Exists fun final => Exists fun call => Exists fun outcome =>
      Sample.messenger.run [.start query, .push 0, .send 0 none] = some final ∧
      final.calls[0]? = some call ∧ call.phase = .returned outcome ∧
      final.Queued 0 ∧ ¬final.Exact := by
  refine ⟨{ Sample.ping [0, 1] Sample.first with
    base := { (Sample.ping [0, 1] Sample.first).base with readOnly := false } }, _, _, _, rfl, rfl, rfl,
    List.mem_singleton.mpr rfl, fun exact' => ?_⟩
  rcases exact'.inProgress 0 (List.mem_singleton.mpr rfl) with ⟨call, found, inProgress⟩
  cases found
  cases inProgress

end DhtExplorer
