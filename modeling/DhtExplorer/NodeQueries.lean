import DhtExplorer.QueueExactness
import DhtExplorer.Server

namespace DhtExplorer

open BigEndian (Bytes)

/-!
# The queries of a node

A node takes its transaction ids from the low sixteen bits of a counter that
wraps around.  As long as no query stays open while the ids come round once, all
open queries have different ids, and every answer finds the query it belongs to.
-/

structure Node where
  server : Server
  messenger : Service

structure NodeState (Store : Type) where
  server : ServerState Store
  messenger : ServiceState

inductive NodeAction where
  | query (receiver : Receiver) (method : QueryMethod)
  | messenger (action : ServiceAction)

variable {Store : Type}

/-- `to_be_bytes` of the counter cast to sixteen bits. -/
def transactionIdOf (counter : UInt64) : Bytes := u16ToBeBytes counter.toUInt16

def ServiceAction.isStart : ServiceAction -> Bool
  | .start _ => true
  | _ => false

namespace Node

/-- `fetch_add` hands out the old value of the counter and wraps around. -/
def buildQuery (self : Node) (state : ServerState Store) (receiver : Receiver) (method : QueryMethod) :
    Query × ServerState Store :=
  let base : MessageBase :=
    { transactionId := transactionIdOf state.transaction
      destination := receiver
      origin := .me self.server.me
      readOnly := self.server.readOnly
      requestorAddr := some self.server.me.addr }
  (base.intoQuery method, { state with transaction := state.transaction + 1 })

/-- One query is built and handed to the messenger, or the messenger moves on.
It gets no queries from elsewhere. -/
def step (self : Node) (state : NodeState Store) : NodeAction -> Option (NodeState Store)
  | .query receiver method =>
      let built := self.buildQuery state.server receiver method
      (self.messenger.step state.messenger (.start built.1)).map fun messenger => ⟨built.2, messenger⟩
  | .messenger action =>
      if action.isStart then none
      else (self.messenger.step state.messenger action).map fun messenger => { state with messenger := messenger }

end Node

/-! ## Open queries -/

/-- The call is built, or its entry waits in the queue. -/
def ServiceState.Open (state : ServiceState) (index : Nat) : Prop :=
  state.Queued index ∨ Exists fun call => state.calls[index]? = some call ∧ call.phase = .built

variable {service : Service} {state next : ServiceState} {action : ServiceAction}

/-- Only a new query opens. -/
theorem Stepped.opened (stepped : Stepped service state action next) {index : Nat} (opened : next.Open index) :
    state.Open index ∨ index = state.calls.length := by
  rcases opened with queued | ⟨call, found, unpushed⟩
  · rcases stepped.queued queued with old | built
    · exact Or.inl (Or.inl old)
    · exact Or.inl (Or.inr built)
  · rcases stepped.built found unpushed with last | built
    · exact Or.inr last
    · exact Or.inl (Or.inr built)

theorem Stepped.closed (stepped : Stepped service state action next) {index : Nat}
    (known : index < state.calls.length) (closed : ¬state.Open index) : ¬next.Open index := by
  intro opened
  rcases stepped.opened opened with before | last
  · exact closed before
  · exact Nat.ne_of_lt known last

/-! ## The assumptions on a run -/

/-- No open query sees sixteen bits' worth of later queries, no send fails and no
timer runs out.  Packets carry the transaction id of a query in the queue, or
come from an address no entry records. -/
def Node.Timely (self : Node) (state : NodeState Store) : NodeAction -> Prop
  | .query _ _ =>
      forall index, state.messenger.Open index -> state.messenger.calls.length - index < 65536
  | .messenger (.send index fault) =>
      forall call, state.messenger.calls[index]? = some call -> ¬self.messenger.SendFails call.query fault
  | .messenger (.receive result) =>
      (Exists fun entry => entry ∈ state.messenger.queue ∧
        entry.transactionId = (QueryResult.base result).transactionId) ∨
      forall entry, entry ∈ state.messenger.queue ->
        entry.destinationAddr ≠ (QueryResult.base result).origin.addr
  | .messenger (.expire _) => False
  | .messenger _ => True

/-! ## Transaction ids -/

/-- Two queries of a node have the same transaction id only when a multiple of
the number of ids lies between them. -/
theorem transactionIdOf_inj {start : UInt64} {first second : Nat}
    (same : transactionIdOf (start + UInt64.ofNat first) = transactionIdOf (start + UInt64.ofNat second)) :
    first % 65536 = second % 65536 := by
  have words := congrArg UInt16.toNat (u16ToBeBytes_injective same)
  rw [UInt64.toNat_toUInt16, UInt64.toNat_toUInt16, UInt64.toNat_add, UInt64.toNat_add,
    UInt64.toNat_ofNat', UInt64.toNat_ofNat'] at words
  omega

/-! ## The invariant -/

/-- The call is not failed: its channel is open or holds an answer, and it returns
nothing but that answer. -/
structure Call.Answering (call : Call) : Prop where
  unbroken : call.channel ≠ .closed
  unexpired : call.phase ≠ .expired
  returned : forall outcome, call.phase = .returned outcome ->
    Exists fun result => outcome = .received result ∧ call.channel = .value result

def AllAnswering (calls : List Call) : Prop :=
  forall (index : Nat) (call : Call), calls[index]? = some call -> call.Answering

/-- What holds in every state of a timely run that starts with the counter at a
given value. -/
structure NodeState.Orderly (start : UInt64) (state : NodeState Store) : Prop where
  tracked : state.messenger.Tracked
  counter : state.server.transaction = start + UInt64.ofNat state.messenger.calls.length
  numbered : forall index query, state.messenger.Asks index query ->
    query.base.transactionId = transactionIdOf (start + UInt64.ofNat index)
  spread : forall index later, state.messenger.Open index -> index < later ->
    later < state.messenger.calls.length -> later - index < 65536
  matched : forall item, state.messenger.Reaches item ->
    Exists fun query => state.messenger.Asks item.1 query ∧
      (QueryResult.base item.2).transactionId = query.base.transactionId
  answering : AllAnswering state.messenger.calls

theorem NodeState.orderly_initial (server : ServerState Store) :
    NodeState.Orderly server.transaction ⟨server, ServiceState.initial⟩ where
  tracked := ServiceState.tracked_initial
  counter := (UInt64.add_zero _).symm
  numbered := by
    rintro index query ⟨call, found, _⟩
    cases found
  spread := fun _ _ _ _ bound => absurd bound (Nat.not_lt_zero _)
  matched := by
    rintro item (delivered | ⟨call, found, _⟩)
    · cases delivered
    · cases found
  answering := fun _ _ found => by cases found

/-- A call moves on without failing. -/
private theorem answering_set {calls : List Call} {index : Nat} {call changed : Call}
    (answering : AllAnswering calls) (found : calls[index]? = some call)
    (sameChannel : changed.channel = call.channel) (unexpired : changed.phase ≠ .expired)
    (returned : forall outcome, changed.phase = .returned outcome ->
      Exists fun result => outcome = .received result ∧ call.channel = .value result) :
    AllAnswering (calls.set index changed) := by
  intro other later laterFound
  rcases VecOps.getElem?_set_cases laterFound with ⟨_, rfl⟩ | ⟨_, old⟩
  · refine ⟨?_, unexpired, fun outcome has => ?_⟩
    · rw [sameChannel]
      exact (answering index call found).unbroken
    · rw [sameChannel]
      exact returned outcome has
  · exact answering other later old

/-- The owner of a sending end has not returned, so it hears its answer. -/
private theorem answering_fulfilled {call : Call} (answering : call.Answering) (pending : call.channel = .pending)
    (result : QueryResult) : (call.fulfilled result).Answering where
  unbroken := by
    unfold Call.fulfilled
    split
    · simp
    · exact answering.unbroken
  unexpired := by
    rw [call.fulfilled_phase]
    exact answering.unexpired
  returned := by
    intro outcome has
    rw [call.fulfilled_phase] at has
    rcases answering.returned outcome has with ⟨_, _, value⟩
    rw [pending] at value
    cases value

theorem Stepped.answering {self : Node} (server : ServerState Store)
    (stepped : Stepped self.messenger state action next) (tracked : state.Tracked)
    (answering : AllAnswering state.calls) (timely : self.Timely ⟨server, state⟩ (.messenger action)) :
    AllAnswering next.calls := by
  cases stepped with
  | start query =>
      intro index call found
      rcases VecOps.getElem?_concat_cases found with old | ⟨_, rfl⟩
      · exact answering index call old
      · exact ⟨by simp, by simp, by simp⟩
  | push found _ | sent found _ _ => exact answering_set answering found rfl (by simp) (by simp)
  | @unsent index call fault description found phase failure =>
      rcases self.messenger.sendMessage_query call.query fault with ⟨fails, _⟩ | ⟨_, packet, sent⟩
      · exact absurd fails (timely call found)
      · rw [failure] at sent
        cases sent
  | taken _ => exact answering
  | ignored _ => exact answering
  | @fulfil index target result found =>
      intro other later laterFound
      rcases VecOps.getElem?_modify_cases laterFound with ⟨call, callFound, ⟨rfl, rfl⟩ | ⟨_, rfl⟩⟩
      · have owned : target ∈ state.owners :=
          List.mem_append_right _ (List.mem_map_of_mem (List.mem_of_getElem? found))
        rcases tracked.owned target owned with ⟨owner, ownerFound, _, pending⟩
        rw [callFound, Option.some.injEq] at ownerFound
        exact answering_fulfilled (answering target call callFound) (ownerFound ▸ pending) result
      · exact answering other later callFound
  | answered found phase channel =>
      refine answering_set answering found rfl (by simp) fun outcome has => ?_
      cases has
      exact ⟨_, rfl, channel⟩
  | disconnected found _ channel => exact absurd channel (answering _ _ found).unbroken
  | expire _ _ => exact timely.elim
  | timedOut found phase _ => exact absurd phase (answering _ _ found).unexpired
  | timedOutAlone found phase _ => exact absurd phase (answering _ _ found).unexpired

/-- A call of the next state is new, or asked the same before. -/
private theorem asked_before (stepped : Stepped service state action next) {index : Nat} {query : Query}
    (asked : next.Asks index query) : state.Asks index query ∨ index = state.calls.length := by
  rcases asked with ⟨call, found, rfl⟩
  have bound := (List.getElem?_eq_some_iff.mp found).1
  rcases Nat.lt_or_ge index state.calls.length with inside | outside
  · have before : state.Asks index state.calls[index].query :=
      ⟨_, List.getElem?_eq_getElem inside, rfl⟩
    have same := (stepped.asks before).unique ⟨call, found, rfl⟩
    exact Or.inl (same ▸ before)
  · rcases stepped.length_calls with same | ⟨_, _, longer⟩
    · exact absurd (same ▸ bound) (Nat.not_lt.mpr outside)
    · rw [longer] at bound
      exact Or.inr (Nat.le_antisymm (Nat.lt_succ_iff.mp bound) outside)

/-- What is received carries the transaction id of the call it goes to. -/
private theorem matched_step {self : Node} (server : ServerState Store) {item : Nat × QueryResult}
    (stepped : Stepped self.messenger state action next) (tracked : state.Tracked)
    (timely : self.Timely ⟨server, state⟩ (.messenger action))
    (matched : forall item, state.Reaches item -> Exists fun query => state.Asks item.1 query ∧
      (QueryResult.base item.2).transactionId = query.base.transactionId)
    (reaches : next.Reaches item) :
    Exists fun query => next.Asks item.1 query ∧
      (QueryResult.base item.2).transactionId = query.base.transactionId := by
  have before : Exists fun query => state.Asks item.1 query ∧
      (QueryResult.base item.2).transactionId = query.base.transactionId := by
    rcases stepped.reaches reaches with already | ⟨rfl, entry, rest, removed, owner⟩
    · exact matched item already
    · rcases removeFromQueue_eq_some removed with ⟨front, back, split, _, selected⟩
      have member : entry ∈ state.queue := by
        rw [split]
        exact List.mem_append_right _ List.mem_cons_self
      rcases tracked.entry entry member with ⟨query, asks, entryEq⟩
      refine ⟨query, owner ▸ asks, ?_⟩
      have entryId : entry.transactionId = query.base.transactionId := by
        rw [entryEq]
        rfl
      rcases selected with ⟨byId, _⟩ | ⟨noId, byAddr⟩
      · exact byId.symm.trans entryId
      · rcases timely with ⟨other, otherMember, otherId⟩ | stranger
        · exact absurd otherId (noId other otherMember)
        · exact absurd byAddr (stranger entry member)
  rcases before with ⟨query, asks, sameId⟩
  exact ⟨query, stepped.asks asks, sameId⟩

namespace Node

variable {self : Node} {start : UInt64} {before after : NodeState Store}

/-- A new query takes the next id. -/
private theorem orderly_query {receiver : Receiver} {method : QueryMethod} (orderly : before.Orderly start)
    (timely : self.Timely before (.query receiver method))
    (taken : self.step before (.query receiver method) = some after) : after.Orderly start := by
  have stepped : Stepped self.messenger before.messenger (.start (self.buildQuery before.server receiver method).1)
      { before.messenger with
        calls := before.messenger.calls ++
          [{ query := (self.buildQuery before.server receiver method).1, phase := .built, channel := .pending }] } :=
    .start _
  cases taken
  refine ⟨stepped.tracked orderly.tracked, ?_, ?_, ?_,
    fun item => matched_step before.server stepped orderly.tracked trivial orderly.matched,
    Stepped.answering before.server stepped orderly.tracked orderly.answering trivial⟩
  · change before.server.transaction + 1 = start + UInt64.ofNat (before.messenger.calls ++ [_]).length
    rw [List.length_append, List.length_singleton, UInt64.ofNat_add, <- UInt64.add_assoc, <- orderly.counter]
    rfl
  · intro index query asked
    rcases asked_before stepped asked with old | rfl
    · exact orderly.numbered index query old
    · rcases asked with ⟨call, found, rfl⟩
      rcases VecOps.getElem?_concat_cases found with old | ⟨_, rfl⟩
      · exact absurd (List.getElem?_eq_some_iff.mp old).1 (Nat.lt_irrefl _)
      · rw [<- orderly.counter]
        rfl
  · intro index later opened earlier bound
    have known : index < before.messenger.calls.length := by
      change later < (before.messenger.calls ++ [_]).length at bound
      rw [List.length_append, List.length_singleton] at bound
      omega
    have openBefore := (stepped.opened opened).resolve_right (Nat.ne_of_lt known)
    rcases Nat.lt_or_ge later before.messenger.calls.length with inside | last
    · exact orderly.spread index later openBefore earlier inside
    · have window := timely index openBefore
      change later < (before.messenger.calls ++ [_]).length at bound
      rw [List.length_append, List.length_singleton] at bound
      omega

/-- The messenger moves on by a step of its own, which starts no call. -/
private theorem messenger_step {action : ServiceAction} (taken : self.step before (.messenger action) = some after) :
    action.isStart = false ∧ Exists fun messenger =>
      Stepped self.messenger before.messenger action messenger ∧ after = { before with messenger := messenger } := by
  unfold step at taken
  dsimp only at taken
  cases isStart : action.isStart with
  | true =>
      rw [isStart] at taken
      cases taken
  | false =>
      rw [isStart, if_neg Bool.false_ne_true] at taken
      rcases Option.map_eq_some_iff.mp taken with ⟨messenger, moved, rfl⟩
      exact ⟨rfl, messenger, stepped_of_step moved, rfl⟩

/-- The messenger moves on. -/
private theorem orderly_messenger {action : ServiceAction} (orderly : before.Orderly start)
    (timely : self.Timely before (.messenger action))
    (taken : self.step before (.messenger action) = some after) : after.Orderly start := by
  rcases self.messenger_step taken with ⟨isStart, messenger, stepped, rfl⟩
  have sameLength : messenger.calls.length = before.messenger.calls.length := by
    rcases stepped.length_calls with same | ⟨query, rfl, _⟩
    · exact same
    · cases isStart
  refine ⟨stepped.tracked orderly.tracked, ?_, ?_, ?_,
    fun item => matched_step before.server stepped orderly.tracked timely orderly.matched,
    Stepped.answering before.server stepped orderly.tracked orderly.answering timely⟩
  · change before.server.transaction = start + UInt64.ofNat messenger.calls.length
    rw [sameLength]
    exact orderly.counter
  · intro index query asked
    rcases asked_before stepped asked with old | rfl
    · exact orderly.numbered index query old
    · rcases asked with ⟨call, found, _⟩
      have bound := (List.getElem?_eq_some_iff.mp found).1
      exact absurd (sameLength ▸ bound) (Nat.lt_irrefl _)
  · intro index later opened earlier bound
    change later < messenger.calls.length at bound
    rw [sameLength] at bound
    have openBefore := (stepped.opened opened).resolve_right (Nat.ne_of_lt (Nat.lt_trans earlier bound))
    exact orderly.spread index later openBefore earlier bound

theorem orderly_step {action : NodeAction} (orderly : before.Orderly start) (timely : self.Timely before action)
    (taken : self.step before action = some after) : after.Orderly start := by
  cases action with
  | query receiver method => exact orderly_query orderly timely taken
  | messenger action => exact orderly_messenger orderly timely taken

/-- The run lemma. -/
theorem orderly_run {server : ServerState Store} {actions : List NodeAction} {final : NodeState Store}
    (ran : PartialRun.run self.step ⟨server, ServiceState.initial⟩ actions = some final)
    (timely : PartialRun.Permitted self.step self.Timely ⟨server, ServiceState.initial⟩ actions) :
    final.Orderly server.transaction :=
  PartialRun.run_invariant_of_permitted (fun _ _ _ orderly timely taken => orderly_step orderly timely taken)
    (NodeState.orderly_initial server) timely ran

/-! ## Answers -/

/-- Open queries have different transaction ids. -/
private theorem eq_of_same_id {state : NodeState Store} (orderly : state.Orderly start) {first second : Nat}
    {firstQuery secondQuery : Query} (firstOpen : state.messenger.Open first)
    (secondOpen : state.messenger.Open second) (firstAsks : state.messenger.Asks first firstQuery)
    (secondAsks : state.messenger.Asks second secondQuery)
    (sameId : firstQuery.base.transactionId = secondQuery.base.transactionId) : first = second := by
  have known : forall {index : Nat} {query : Query}, state.messenger.Asks index query ->
      index < state.messenger.calls.length := by
    rintro index query ⟨call, found, _⟩
    exact (List.getElem?_eq_some_iff.mp found).1
  rw [orderly.numbered first firstQuery firstAsks, orderly.numbered second secondQuery secondAsks] at sameId
  have congruent := transactionIdOf_inj sameId
  rcases Nat.lt_trichotomy first second with earlier | same | later
  · have window := orderly.spread first second firstOpen earlier (known secondAsks)
    omega
  · exact same
  · have window := orderly.spread second first secondOpen later (known firstAsks)
    omega

/-- A packet with the id of an entry takes that entry and no other. -/
private theorem removeFromQueue_own {state : NodeState Store} (orderly : state.Orderly start)
    {entry : OutstandingQuery} (member : entry ∈ state.messenger.queue) (addr : SocketAddr) :
    removeFromQueue state.messenger.queue entry.transactionId addr =
      some (entry, state.messenger.queue.filter fun other => other.returnValue != entry.returnValue) := by
  cases first : firstWithId state.messenger.queue entry.transactionId with
  | none => exact absurd (beq_iff_eq.mpr rfl) (List.find?_eq_none.mp first entry member)
  | some own =>
      have ownMember : own ∈ state.messenger.queue := List.mem_of_find?_eq_some first
      have passes := List.find?_some first
      have ownId : own.transactionId = entry.transactionId := beq_iff_eq.mp passes
      rcases orderly.tracked.entry entry member with ⟨query, asks, entryEq⟩
      rcases orderly.tracked.entry own ownMember with ⟨ownQuery, ownAsks, ownEq⟩
      have sameQueryId : ownQuery.base.transactionId = query.base.transactionId := by
        rw [ownEq, entryEq] at ownId
        exact ownId
      have sameCall : own.returnValue = entry.returnValue :=
        eq_of_same_id orderly (Or.inl (List.mem_map_of_mem ownMember)) (Or.inl (List.mem_map_of_mem member))
          ownAsks asks sameQueryId
      have sameEntry : own = entry := by
        have sameQuery : ownQuery = query := by
          rw [sameCall] at ownAsks
          exact ownAsks.unique asks
        rw [ownEq, entryEq, sameCall, sameQuery]
      subst sameEntry
      rcases removeFromQueue_of_first first addr with ⟨front, back, split, removed⟩
      have unique := orderly.tracked.queue_nodup
      rw [split] at unique removed ⊢
      rw [removed, VecOps.filter_key_ne unique]

/-- Every step of a node is a step of its messenger. -/
private theorem stepped {action : NodeAction} (taken : self.step before action = some after) :
    Exists fun inner => Stepped self.messenger before.messenger inner after.messenger := by
  cases action with
  | query receiver method =>
      cases taken
      exact ⟨_, .start _⟩
  | messenger action =>
      rcases self.messenger_step taken with ⟨_, messenger, moved, rfl⟩
      exact ⟨action, moved⟩

/-- A query that is not open any more never opens again. -/
private theorem closed_run {state later : NodeState Store} {actions : List NodeAction} {index : Nat}
    (known : index < state.messenger.calls.length) (closed : ¬state.messenger.Open index)
    (ran : PartialRun.run self.step state actions = some later) : ¬later.messenger.Open index := by
  have preserved : forall (before : NodeState Store) action (after : NodeState Store),
      index < before.messenger.calls.length ∧ ¬before.messenger.Open index ->
      self.step before action = some after ->
      index < after.messenger.calls.length ∧ ¬after.messenger.Open index := by
    rintro before action after ⟨known, closed⟩ taken
    rcases self.stepped taken with ⟨inner, moved⟩
    refine ⟨?_, moved.closed known closed⟩
    rcases moved.length_calls with same | ⟨_, _, longer⟩
    · rwa [same]
    · rw [longer]
      exact Nat.lt_succ_of_lt known
  exact (PartialRun.run_invariant preserved ⟨known, closed⟩ ran).2

/-- A call that has returned keeps what it returned. -/
private theorem returned_run {state later : NodeState Store} {actions : List NodeAction} {index : Nat}
    {outcome : Outcome}
    (returned : Exists fun call => state.messenger.calls[index]? = some call ∧ call.phase = .returned outcome)
    (ran : PartialRun.run self.step state actions = some later) :
    Exists fun call => later.messenger.calls[index]? = some call ∧ call.phase = .returned outcome := by
  have preserved : forall (before : NodeState Store) (action : NodeAction) (after : NodeState Store),
      (Exists fun call => before.messenger.calls[index]? = some call ∧ call.phase = .returned outcome) ->
      self.step before action = some after ->
      Exists fun call => after.messenger.calls[index]? = some call ∧ call.phase = .returned outcome := by
    rintro before action after ⟨call, found, returned⟩ taken
    rcases self.stepped taken with ⟨inner, moved⟩
    exact moved.returned found returned
  exact PartialRun.run_invariant preserved returned ran

end Node

/-- Receiving the result hands it to the call of the entry, which listens for it.
Only this entry leaves the queue, and it never comes back. -/
structure Node.Delivers (node : Node) (state : NodeState Store) (result : QueryResult) (entry : OutstandingQuery)
    (next : ServiceState) : Prop where
  received : node.step state (.messenger (.receive result)) = some { state with messenger := next }
  queue : next.queue = state.messenger.queue.filter fun other => other.returnValue != entry.returnValue
  deliveries : next.deliveries = state.messenger.deliveries ++ [(entry.returnValue, result)]
  listening : Exists fun call => next.calls[entry.returnValue]? = some call ∧ call.listening = true ∧
    call.query.base.transactionId = (QueryResult.base result).transactionId
  once : forall more later, PartialRun.run node.step { state with messenger := next } more = some later ->
    ¬later.messenger.Queued entry.returnValue

/-- The call has returned what it received, under its own transaction id, and
stays returned. -/
structure Node.Completed (node : Node) (state : NodeState Store) (index : Nat) (call : Call) (outcome : Outcome) :
    Prop where
  received : Exists fun result => outcome = .received result ∧
    (QueryResult.base result).transactionId = call.query.base.transactionId
  forGood : forall more later, PartialRun.run node.step state more = some later ->
    Exists fun same => later.messenger.calls[index]? = some same ∧ Call.phase same = .returned outcome

theorem Node.delivers {self : Node} {start : UInt64} {state : NodeState Store} (orderly : state.Orderly start)
    {result : QueryResult} {entry : OutstandingQuery} (member : entry ∈ state.messenger.queue)
    (sameId : entry.transactionId = (QueryResult.base result).transactionId) :
    Exists fun next => self.Delivers state result entry next := by
  have queued : entry.returnValue ∈ state.messenger.owners :=
    List.mem_append_left _ (List.mem_map_of_mem member)
  rcases orderly.tracked.owned entry.returnValue queued with ⟨call, found, pushed, pending⟩
  have removed := removeFromQueue_own orderly member (QueryResult.base result).origin.addr
  rw [sameId] at removed
  have taken : self.messenger.step state.messenger (.receive result) = some _ := (Stepped.taken removed).step
  refine ⟨{ state.messenger with
      queue := state.messenger.queue.filter fun other => other.returnValue != entry.returnValue
      deliveries := state.messenger.deliveries ++ [(entry.returnValue, result)] },
    ?_, rfl, rfl, ⟨call, found, ?_, ?_⟩, ?_⟩
  · unfold Node.step
    dsimp only
    rw [taken]
    rfl
  · have answering := orderly.answering entry.returnValue call found
    unfold Call.listening
    cases phase : call.phase with
    | built => rfl
    | sending => rfl
    | selecting => rfl
    | expired => exact absurd phase answering.unexpired
    | returned outcome =>
        rcases answering.returned outcome phase with ⟨_, _, value⟩
        rw [pending] at value
        cases value
  · have callId := congrArg OutstandingQuery.transactionId (orderly.tracked.own_entry member found)
    exact callId.symm.trans sameId
  · intro more later ran stillQueued
    refine closed_run ?_ ?_ ran (Or.inl stillQueued)
    · exact (List.getElem?_eq_some_iff.mp found).1
    · rintro (again | ⟨same, sameFound, unpushed⟩)
      · rcases List.mem_map.mp again with ⟨other, otherMember, sameCall⟩
        exact bne_iff_ne.mp (List.mem_filter.mp otherMember).2 sameCall
      · change state.messenger.calls[entry.returnValue]? = some same at sameFound
        rw [found, Option.some.injEq] at sameFound
        exact pushed (sameFound ▸ unpushed)

theorem Node.completed {self : Node} {start : UInt64} {state : NodeState Store} (orderly : state.Orderly start)
    {index : Nat} {call : Call} {outcome : Outcome} (found : state.messenger.calls[index]? = some call)
    (returned : call.phase = .returned outcome) : self.Completed state index call outcome := by
  refine ⟨?_, fun more later ran => returned_run ⟨call, found, returned⟩ ran⟩
  rcases (orderly.answering index call found).returned outcome returned with ⟨result, rfl, _⟩
  rcases orderly.matched (index, result) (Or.inr ⟨call, found, Or.inr returned⟩) with ⟨query, asks, sameId⟩
  have same : query = call.query := asks.unique ⟨call, found, rfl⟩
  exact ⟨result, rfl, same ▸ sameId⟩

/-- In a timely run of a node, whatever the counter starts with, every packet
with the transaction id of a query in the queue is delivered to exactly that
query, and every call that returns returns its own answer, once. -/
theorem answers_reach_their_queries (self : Node) (server : ServerState Store) (actions : List NodeAction)
    (final : NodeState Store) (ran : PartialRun.run self.step ⟨server, ServiceState.initial⟩ actions = some final)
    (timely : PartialRun.Permitted self.step self.Timely ⟨server, ServiceState.initial⟩ actions) :
    (forall result entry, entry ∈ final.messenger.queue ->
      entry.transactionId = (QueryResult.base result).transactionId ->
      Exists fun next => self.Delivers final result entry next) ∧
    (forall (index : Nat) (call : Call) (outcome : Outcome), final.messenger.calls[index]? = some call ->
      call.phase = .returned outcome -> self.Completed final index call outcome) := by
  have orderly := Node.orderly_run ran timely
  constructor
  · intro result entry member sameId
    exact Node.delivers orderly member sameId
  · intro index call outcome found returned
    exact Node.completed orderly found returned

namespace Sample

def server : Server where
  readOnly := true
  me := ⟨U160.min, .v4 0 1337⟩
  tokens := ⟨[]⟩
  crypto := ⟨fun _ => 0, fun _ _ _ => 0⟩
  bencode := Bencode.textCodec

def node : Node := ⟨server, messenger⟩

/-- The counter is about to wrap around. -/
def serverState : ServerState MemoryTree := ⟨Router.new server.me, UInt64.ofNat (2 ^ 64 - 1), ∅⟩

/-- Two pings are under way, the second one since the counter wrapped around.  The
second one is answered first. -/
def pingsCrossed : List NodeAction :=
  [.query (.addr first) .ping, .query (.addr first) .ping, .messenger (.push 0), .messenger (.push 1),
    .messenger (.send 0 none), .messenger (.send 1 none),
    .messenger (.receive (pong [0, 0] first)), .messenger (.fulfil 0), .messenger (.answered 1)]

theorem pingsCrossed_timely :
    PartialRun.Permitted node.step node.Timely ⟨serverState, ServiceState.initial⟩ pingsCrossed := by
  refine ⟨fun index _ => ?_, fun next taken => ?_⟩
  · change 0 - index < 65536
    omega
  cases taken
  refine ⟨fun index _ => ?_, fun next taken => ?_⟩
  · change 1 - index < 65536
    omega
  cases taken
  refine ⟨trivial, fun next taken => ?_⟩
  cases taken
  refine ⟨trivial, fun next taken => ?_⟩
  cases taken
  refine ⟨fun call found => ?_, fun next taken => ?_⟩
  · cases found
    exact node.messenger.sendable rfl rfl
  cases taken
  refine ⟨fun call found => ?_, fun next taken => ?_⟩
  · cases found
    exact node.messenger.sendable rfl rfl
  cases taken
  refine ⟨Or.inl ⟨_, List.mem_cons_of_mem _ (List.mem_singleton.mpr rfl), rfl⟩, fun next taken => ?_⟩
  cases taken
  exact ⟨trivial, fun _ _ => ⟨trivial, fun _ _ => trivial⟩⟩

end Sample

open Sample in
/-- The second call has returned its own answer, and the first one's answer would still
find its query. -/
theorem answers_reach_their_queries_crossed :
    Exists fun final => Exists fun call => Exists fun outcome => Exists fun entry => Exists fun next =>
      PartialRun.run node.step ⟨serverState, ServiceState.initial⟩ pingsCrossed = some final ∧
      final.messenger.calls[1]? = some call ∧ call.phase = .returned outcome ∧
      node.Completed final 1 call outcome ∧
      final.messenger.queue = [entry] ∧ entry.returnValue = 0 ∧
      node.Delivers final (pong [255, 255] first) entry next := by
  have ran : Exists fun final => Exists fun call => Exists fun outcome => Exists fun entry =>
      PartialRun.run node.step ⟨serverState, ServiceState.initial⟩ pingsCrossed = some final ∧
      final.messenger.calls[1]? = some call ∧ call.phase = .returned outcome ∧
      final.messenger.queue = [entry] ∧ entry.returnValue = 0 ∧ entry.transactionId = [255, 255] :=
    ⟨_, _, _, _, rfl, rfl, rfl, rfl, rfl, rfl⟩
  rcases ran with ⟨final, call, outcome, entry, ran, found, returned, queue, number, id⟩
  rcases answers_reach_their_queries node serverState pingsCrossed final ran pingsCrossed_timely with
    ⟨delivered, completed⟩
  have queued : entry ∈ final.messenger.queue := queue ▸ List.mem_singleton.mpr rfl
  rcases delivered (pong [255, 255] first) entry queued id with ⟨next, delivers⟩
  exact ⟨final, call, outcome, entry, next, ran, found, returned, completed 1 call outcome found returned, queue, number,
    delivers⟩

end DhtExplorer
