import DhtExplorer.Library.BencodeText
import DhtExplorer.ServiceInvariant

namespace DhtExplorer

/-!
# Outstanding queries over whole runs

Three questions about the shared queue: which packet can complete a query, what
the timeout of one query does to the others, and when the queue holds exactly
the calls in progress.
-/

variable {service : Service}

/-! ## Which packet completes a query -/

/-- The result is on its way to the call, or has reached it. -/
def ServiceState.Reaches (state : ServiceState) (item : Nat × QueryResult) : Prop :=
  item ∈ state.deliveries ∨
    Exists fun call => state.calls[item.1]? = some call ∧
      (call.channel = .value item.2 ∨ call.phase = .returned (.received item.2))

/-- Receiving the result takes the call's entry out of the queue. -/
def ServiceState.Takes (state : ServiceState) (action : ServiceAction) (item : Nat × QueryResult) : Prop :=
  action = .receive item.2 ∧
    Exists fun entry => Exists fun rest =>
      removeFromQueue state.queue (QueryResult.base item.2).transactionId
        (QueryResult.base item.2).origin.addr = some (entry, rest) ∧
      entry.returnValue = item.1

private theorem reaches_of_set {queue old : List OutstandingQuery} {calls : List Call}
    {deliveries : List (Nat × QueryResult)} {item : Nat × QueryResult} {index : Nat} {call changed : Call}
    (reaches : ServiceState.Reaches ⟨queue, calls.set index changed, deliveries⟩ item)
    (found : calls[index]? = some call) (sameChannel : changed.channel = call.channel)
    (answered : changed.phase = .returned (.received item.2) -> call.channel = .value item.2) :
    ServiceState.Reaches ⟨old, calls, deliveries⟩ item := by
  rcases reaches with delivered | ⟨later, laterFound, has⟩
  · exact Or.inl delivered
  · rcases VecOps.getElem?_set_cases laterFound with ⟨rfl, rfl⟩ | ⟨_, old⟩
    · refine Or.inr ⟨call, found, Or.inl ?_⟩
      rcases has with value | returned
      · exact sameChannel.symm.trans value
      · exact answered returned
    · exact Or.inr ⟨later, old, has⟩

private theorem reaches_of_modify {calls : List Call} {item : Nat × QueryResult} {target : Nat}
    {change : Call -> Call} (samePhase : forall call, (change call).phase = call.phase)
    (reaches : Exists fun call => (calls.modify target change)[item.1]? = some call ∧
      (call.channel = .value item.2 ∨ call.phase = .returned (.received item.2))) :
    Exists fun call => calls[item.1]? = some call ∧
      (call.channel = .value item.2 ∨ call.phase = .returned (.received item.2) ∨
        (target = item.1 ∧ (change call).channel = .value item.2)) := by
  rcases reaches with ⟨later, laterFound, has⟩
  rcases VecOps.getElem?_modify_cases laterFound with ⟨call, found, ⟨same, rfl⟩ | ⟨_, rfl⟩⟩
  · refine ⟨call, found, ?_⟩
    rcases has with value | returned
    · exact Or.inr (Or.inr ⟨same, value⟩)
    · exact Or.inr (Or.inl ((samePhase call).symm.trans returned))
  · exact ⟨later, found, has.imp_right Or.inl⟩

/-- A result reaches a call because it did before, or because this step received it. -/
theorem Stepped.reaches {state next : ServiceState} {action : ServiceAction} {item : Nat × QueryResult}
    (stepped : Stepped service state action next) (reaches : next.Reaches item) :
    state.Reaches item ∨ state.Takes action item := by
  cases stepped with
  | start query =>
      apply Or.inl
      rcases reaches with delivered | ⟨later, laterFound, has⟩
      · exact Or.inl delivered
      · rcases VecOps.getElem?_concat_cases laterFound with old | ⟨_, rfl⟩
        · exact Or.inr ⟨later, old, has⟩
        · rcases has with value | returned
          · cases value
          · cases returned
  | push found _ | sent found _ _ | expire found _ =>
      exact Or.inl (reaches_of_set reaches found rfl (by simp))
  | unsent found _ _ | disconnected found _ _ | timedOutAlone found _ _ =>
      exact Or.inl (reaches_of_set reaches found rfl (by simp [Call.fails]))
  | @taken result waiting queue removed =>
      rcases reaches with delivered | called
      · rcases List.mem_append.mp delivered with old | new
        · exact Or.inl (Or.inl old)
        · cases List.mem_singleton.mp new
          exact Or.inr ⟨rfl, waiting, queue, removed, rfl⟩
      · exact Or.inl (Or.inr called)
  | ignored _ => exact Or.inl reaches
  | @fulfil index target result found =>
      apply Or.inl
      rcases reaches with delivered | called
      · exact Or.inl (List.mem_of_mem_eraseIdx delivered)
      · rcases reaches_of_modify (fun call => call.fulfilled_phase result) called with
          ⟨call, callFound, value | returned | ⟨same, value⟩⟩
        · exact Or.inr ⟨call, callFound, Or.inl value⟩
        · exact Or.inr ⟨call, callFound, Or.inr returned⟩
        · by_cases listening : call.listening = true
          · rw [Call.fulfilled, if_pos listening] at value
            cases value
            subst same
            exact Or.inl (List.mem_of_getElem? found)
          · rw [Call.fulfilled, if_neg listening] at value
            exact Or.inr ⟨call, callFound, Or.inl value⟩
  | answered found _ channel =>
      refine Or.inl (reaches_of_set reaches found rfl fun returned => ?_)
      cases returned
      exact channel
  | @timedOut _ _ removed _ found phase _ =>
      apply Or.inl
      have deaf := VecOps.getElem?_modify_of_fixed removed.returnValue found (Call.dropped_of_expired phase)
      have before : ServiceState.Reaches ⟨state.queue, _, state.deliveries⟩ item :=
        reaches_of_set reaches deaf rfl (by simp [Call.fails])
      rcases before with delivered | called
      · exact Or.inl delivered
      · rcases reaches_of_modify Call.dropped_phase called with
          ⟨call, callFound, value | returned | ⟨_, value⟩⟩
        · exact Or.inr ⟨call, callFound, Or.inl value⟩
        · exact Or.inr ⟨call, callFound, Or.inr returned⟩
        · by_cases listening : call.listening = true
          · rw [Call.dropped, if_pos listening] at value
            cases value
          · rw [Call.dropped, if_neg listening] at value
            exact Or.inr ⟨call, callFound, Or.inl value⟩

/-- A call that completes with a received response or error had its entry in the
queue when that packet came.  The packet carries the call's transaction id, or
no entry has the packet's id and it comes from the address in the call's entry. -/
theorem completed_by_matching_packet {actions : List ServiceAction} {final : ServiceState}
    (ran : service.run actions = some final) {index : Nat} {call : Call} {result : QueryResult}
    (found : final.calls[index]? = some call) (completed : call.phase = .returned (.received result)) :
    Exists fun before => Exists fun after => Exists fun middle => Exists fun entry =>
      actions = before ++ .receive result :: after ∧ service.run before = some middle ∧
      entry ∈ middle.queue ∧ entry.returnValue = index ∧
      entry.transactionId = call.query.base.transactionId ∧
      ((QueryResult.base result).transactionId = call.query.base.transactionId ∨
        ((forall other, other ∈ middle.queue -> other.transactionId ≠ (QueryResult.base result).transactionId) ∧
          (QueryResult.base result).origin.addr = entry.destinationAddr)) := by
  have reaches : final.Reaches (index, result) := Or.inr ⟨call, found, Or.inr completed⟩
  have origin : forall state action next item, service.step state action = some next ->
      ServiceState.Reaches next item -> ServiceState.Reaches state item ∨ ServiceState.Takes state action item :=
    fun _ _ _ _ step later => (stepped_of_step step).reaches later
  rcases PartialRun.run_origin origin ran reaches with
    initially | ⟨before, action, after, middle, split, reached, rfl, entry, rest, removed, owner⟩
  · rcases initially with delivered | ⟨_, nobody, _⟩
    · cases delivered
    · cases nobody
  · rcases removeFromQueue_eq_some removed with ⟨front, back, queueSplit, _, selected⟩
    have member : entry ∈ middle.queue := by
      rw [queueSplit]
      exact List.mem_append_right _ List.mem_cons_self
    rcases (tracked_run reached).entry entry member with ⟨query, asks, entryEq⟩
    rw [split] at ran
    rcases PartialRun.run_append_eq_some.mp ran with ⟨same, reachedSame, rest⟩
    have middleSame : same = middle := Option.some.inj (reachedSame.symm.trans reached)
    have asked := asks_run (middleSame ▸ owner ▸ asks) rest
    have queryEq : query = call.query := asked.unique ⟨call, found, rfl⟩
    have sameId : entry.transactionId = call.query.base.transactionId := by
      rw [entryEq, queryEq]
      rfl
    refine ⟨before, after, middle, entry, split, reached, member, owner, sameId, ?_⟩
    rcases selected with ⟨byId, _⟩ | ⟨noId, byAddr⟩
    · exact Or.inl (byId.symm.trans sameId)
    · exact Or.inr ⟨noId, byAddr.symm⟩

/-! The sample runs below ask contacts with their own addresses for a sign of life. -/

namespace Sample

def messenger : Service := ⟨Bencode.textCodec, false⟩

def ping (id : BigEndian.Bytes) (destination : SocketAddr) : Query where
  method := .ping
  base :=
    { origin := .me ⟨U160.min, .v4 0 1337⟩
      destination := .addr destination
      requestorAddr := some (.v4 0 1337)
      transactionId := id
      readOnly := true }

def pong (id : BigEndian.Bytes) (source : SocketAddr) : QueryResult :=
  .ok
    { kind := .ok
      base :=
        { origin := .remote ⟨U160.min, source⟩
          destination := .me
          requestorAddr := none
          transactionId := id } }

def first : SocketAddr := .v4 0x01010101 6881
def second : SocketAddr := .v4 0x02020202 6881

/-- The first contact is asked, and the packet comes from some address. -/
def answeredFrom (source : SocketAddr) : List ServiceAction :=
  [.start (ping [0, 1] first), .push 0, .send 0 none, .receive (pong [0, 1] source), .fulfil 0, .answered 0]

end Sample

/-- The query to the first contact completes with a packet from the second. -/
theorem completed_from_other_address :
    Exists fun final => Exists fun call => Exists fun result =>
      Sample.messenger.run (Sample.answeredFrom Sample.second) = some final ∧
      final.calls[0]? = some call ∧ call.phase = .returned (.received result) ∧
      call.query.base.destination.toSocketAddr = some Sample.first ∧
      (QueryResult.base result).origin.addr ≠ Sample.first := by
  refine ⟨_, _, _, rfl, rfl, rfl, rfl, ?_⟩
  decide

theorem completed_by_matching_packet_ping :
    Exists fun before => Exists fun after => Exists fun middle => Exists fun entry =>
      Sample.answeredFrom Sample.first = before ++ .receive (Sample.pong [0, 1] Sample.first) :: after ∧
      Sample.messenger.run before = some middle ∧ entry ∈ middle.queue ∧ entry.returnValue = 0 ∧
      entry.transactionId = [0, 1] := by
  have ran : Exists fun final => Exists fun call =>
      Sample.messenger.run (Sample.answeredFrom Sample.first) = some final ∧ final.calls[0]? = some call ∧
      call.query.base.transactionId = [0, 1] ∧
      call.phase = .returned (.received (Sample.pong [0, 1] Sample.first)) :=
    ⟨_, _, rfl, rfl, rfl, rfl⟩
  rcases ran with ⟨final, call, ran, found, sameId, completed⟩
  rcases completed_by_matching_packet ran found completed with
    ⟨before, after, middle, entry, split, reached, member, owner, entryId, _⟩
  exact ⟨before, after, middle, entry, split, reached, member, owner, entryId.trans sameId⟩

/-! ## What a timeout does to other queries -/

/-- The first entry with a transaction id. -/
def firstWithId (queue : List OutstandingQuery) (id : BigEndian.Bytes) : Option OutstandingQuery :=
  queue.find? fun entry => entry.transactionId == id

/-- It is the one that is removed, wherever the packet comes from. -/
theorem removeFromQueue_of_first {queue : List OutstandingQuery} {id : BigEndian.Bytes}
    {own : OutstandingQuery} (first : firstWithId queue id = some own) (addr : SocketAddr) :
    Exists fun before => Exists fun after => queue = before ++ own :: after ∧
      removeFromQueue queue id addr = some (own, before ++ after) := by
  rcases VecOps.removeFirst_of_find? first with ⟨before, after, split, removed⟩
  refine ⟨before, after, split, ?_⟩
  rw [removeFromQueue, removed]
  rfl

theorem firstWithId_of_removed {queue rest : List OutstandingQuery} {id : BigEndian.Bytes}
    {addr : SocketAddr} {entry : OutstandingQuery}
    (removed : removeFromQueue queue id addr = some (entry, rest)) (sameId : entry.transactionId = id) :
    firstWithId queue id = some entry := by
  rcases removeFromQueue_eq_some removed with ⟨before, after, split, _, ⟨_, noneBefore⟩ | ⟨noId, _⟩⟩
  · refine List.find?_eq_some_iff_append.mpr ⟨beq_iff_eq.mpr sameId, before, after, split, ?_⟩
    intro other member
    exact Bool.not_eq_true' _ |>.mpr (beq_eq_false_iff_ne.mpr (noneBefore other member))
  · refine absurd sameId (noId entry ?_)
    rw [split]
    exact List.mem_append_right _ List.mem_cons_self

/-- A timeout takes away at most the call's own entry, and leaves the other calls
and the packets on their way alone. -/
def Service.TimeoutLocal (self : Service) (state : ServiceState) : ServiceAction -> Prop
  | .removeExpired index =>
      forall next, self.step state (.removeExpired index) = some next ->
        next.queue = state.queue.filter (fun entry => entry.returnValue != index) ∧
        (forall other, other ≠ index -> next.calls[other]? = state.calls[other]?) ∧
        next.deliveries = state.deliveries
  | _ => True

/-- The call's own entry is the first with its transaction id, or else no entry
has the id, or an address equal to that of the call's own origin. -/
def TimeoutFindsOwn (state : ServiceState) : ServiceAction -> Prop
  | .removeExpired index =>
      forall call, state.calls[index]? = some call -> call.phase = .expired ->
        (Exists fun own => firstWithId state.queue call.query.base.transactionId = some own ∧
          own.returnValue = index) ∨
        forall entry, entry ∈ state.queue -> entry.transactionId ≠ call.query.base.transactionId ∧
          entry.destinationAddr ≠ call.query.base.origin.addr
  | _ => True

private theorem timeoutLocal_of_findsOwn {state : ServiceState} {index : Nat} (tracked : state.Tracked)
    (finds : TimeoutFindsOwn state (.removeExpired index)) : service.TimeoutLocal state (.removeExpired index) := by
  intro next step
  cases stepped_of_step step with
  | @timedOut _ call removed rest found phase removal =>
      rcases finds call found phase with ⟨own, first, owner⟩ | nothing
      · rcases removeFromQueue_of_first first call.query.base.origin.addr with
          ⟨before, after, split, taken⟩
        rw [taken] at removal
        cases removal
        refine ⟨?_, fun other different => ?_, rfl⟩
        · have unique := tracked.queue_nodup
          rw [split] at unique ⊢
          exact (owner ▸ VecOps.filter_key_ne unique).symm
        · change ((state.calls.modify removed.returnValue Call.dropped).set index _)[other]? = _
          rw [List.getElem?_set_ne different.symm, owner, List.getElem?_modify_ne _ _ different.symm]
      · rw [removeFromQueue_eq_none.mpr nothing] at removal
        cases removal
  | @timedOutAlone _ call found phase removal =>
      refine ⟨(List.filter_eq_self.mpr fun entry member => ?_).symm, fun other different => ?_, rfl⟩
      · apply bne_iff_ne.mpr
        intro owner
        subst owner
        have sameId := congrArg OutstandingQuery.transactionId (tracked.own_entry member found)
        exact (removeFromQueue_eq_none.mp removal entry member).1 sameId
      · exact List.getElem?_set_ne different.symm

private theorem findsOwn_of_timeoutLocal {state : ServiceState} {index : Nat} (tracked : state.Tracked)
    (timeoutLocal : service.TimeoutLocal state (.removeExpired index)) :
    TimeoutFindsOwn state (.removeExpired index) := by
  intro call found phase
  cases removal : removeFromQueue state.queue call.query.base.transactionId call.query.base.origin.addr with
  | none => exact Or.inr (removeFromQueue_eq_none.mp removal)
  | some pair =>
      rcases pair with ⟨removed, rest⟩
      rcases removeFromQueue_eq_some removal with ⟨before, after, split, rfl, _⟩
      have member : removed ∈ state.queue := by
        rw [split]
        exact List.mem_append_right _ List.mem_cons_self
      have queueLocal := (timeoutLocal _ (Stepped.timedOut found phase removal).step).1
      have owner : removed.returnValue = index := by
        by_contra different
        -- the removed entry would survive the filter, but it occurs only once
        have survives : removed ∈ before ++ after := by
          change before ++ after = _ at queueLocal
          rw [queueLocal]
          exact List.mem_filter.mpr ⟨member, bne_iff_ne.mpr different⟩
        have unique := tracked.queue_nodup.of_map
        rw [split] at unique
        exact (List.nodup_cons.mp (List.perm_middle.nodup_iff.mp unique)).1 survives
      subst owner
      have sameId := congrArg OutstandingQuery.transactionId (tracked.own_entry member found)
      exact Or.inl ⟨removed, firstWithId_of_removed removal sameId, rfl⟩

/-- The timeouts of a run leave all other queries alone exactly when each finds
its own entry first, or nothing it could take instead. -/
theorem timeouts_local_iff (service : Service) (actions : List ServiceAction) :
    PartialRun.Permitted service.step service.TimeoutLocal ServiceState.initial actions <->
      PartialRun.Permitted service.step TimeoutFindsOwn ServiceState.initial actions := by
  have agree : forall state action, ServiceState.Tracked state ->
      (service.TimeoutLocal state action <-> TimeoutFindsOwn state action) := by
    intro state action tracked
    cases action with
    | removeExpired index => exact ⟨findsOwn_of_timeoutLocal tracked, timeoutLocal_of_findsOwn tracked⟩
    | _ => exact Iff.rfl
  exact PartialRun.permitted_iff (fun _ _ _ tracked step => tracked_step tracked step) agree actions
    ServiceState.tracked_initial

/-- The answer to the first query takes its entry, and its timer is chosen before
the answer is handed over. -/
def Sample.expiredAnswered : List ServiceAction :=
  [.start (ping [0, 1] first), .start (ping [0, 2] second), .push 0, .push 1, .send 0 none, .send 1 none,
    .receive (pong [0, 1] first), .expire 0]

/-- The timeout of the first query removes the entry of the second and closes its
channel, although their transaction ids differ. -/
theorem timeout_fails_other_query :
    Exists fun before => Exists fun after => Exists fun call =>
      Sample.messenger.run Sample.expiredAnswered = some before ∧
      (before.calls.map fun call => call.query.base.transactionId).Nodup ∧
      before.queue.map OutstandingQuery.returnValue = [1] ∧
      Sample.messenger.step before (.removeExpired 0) = some after ∧
      after.queue = [] ∧ after.calls[1]? = some call ∧ call.channel = .closed ∧
      ¬Sample.messenger.TimeoutLocal before (.removeExpired 0) := by
  refine ⟨_, _, _, rfl, by decide, rfl, rfl, rfl, rfl, rfl, fun timeoutLocal => ?_⟩
  have queueLocal := (timeoutLocal _ rfl).1
  cases queueLocal

end DhtExplorer
