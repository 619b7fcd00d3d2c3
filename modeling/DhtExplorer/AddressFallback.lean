import Mathlib.Data.List.Find
import DhtExplorer.OutstandingQueries

namespace DhtExplorer

/-!
# Packets with an unknown transaction id

A packet whose transaction id nobody waits for is matched by the address it
comes from.  An entry of the queue records the address of the node that asks,
not of the contact that is asked.  So the search by address finds queries that
were made by that address, and the query that was sent to it stays queued.

The searches are compared on the queries behind the entries: both agree on a
packet exactly when it is handed to the earliest query sent to its source.
-/

namespace ServiceState

/-- The query behind an entry was sent to the address. -/
def sentTo (state : ServiceState) (addr : SocketAddr) (entry : OutstandingQuery) : Bool :=
  (state.calls[entry.returnValue]?.bind fun call => call.query.base.destination.toSocketAddr) == some addr

/-- The query behind an entry names the address as its own. -/
def sentFrom (state : ServiceState) (addr : SocketAddr) (entry : OutstandingQuery) : Bool :=
  (state.calls[entry.returnValue]?.map fun call => call.query.base.origin.addr) == some addr

/-- The entry leaves the queue and the packet is on its way to its call. -/
def handOver (state : ServiceState) (entry : OutstandingQuery) (result : QueryResult) : ServiceState :=
  { state with
    queue := state.queue.erase entry
    deliveries := state.deliveries ++ [(entry.returnValue, result)] }

end ServiceState

/-- A packet completes the earliest query sent to its source, or is dropped. -/
def Service.FallsBackToDestination (self : Service) (state : ServiceState) (result : QueryResult) : Prop :=
  self.step state (.receive result) =
    match state.queue.find? (state.sentTo (QueryResult.base result).origin.addr) with
    | some entry => some (state.handOver entry result)
    | none => some state

/-- The packet that the entry is handed ends in the entry's call: the next step of the
hand over puts it there, and the call returns it if it waits. -/
def Service.Completes (self : Service) (state : ServiceState) (result : QueryResult) (entry : OutstandingQuery) : Prop :=
  Exists fun call => Exists fun next => state.calls[entry.returnValue]? = some call ∧
    self.step (state.handOver entry result) (.fulfil state.deliveries.length) = some next ∧
    next.queue = state.queue.erase entry ∧ next.calls[entry.returnValue]? = some (call.fulfilled result) ∧
    (call.phase = .selecting -> Exists fun done => self.step next (.answered entry.returnValue) = some done ∧
      Exists fun ended => done.calls[entry.returnValue]? = some ended ∧ ended.phase = .returned (.received result))

/-- No entry has the transaction id of the packet. -/
def ServiceState.Unknown (state : ServiceState) (result : QueryResult) : Prop :=
  forall entry, entry ∈ state.queue -> entry.transactionId ≠ (QueryResult.base result).transactionId

variable {service : Service} {state : ServiceState} {result : QueryResult}

/-- The recorded address is that of the query's origin. -/
theorem ServiceState.Tracked.destinationAddr_eq (tracked : state.Tracked) {entry : OutstandingQuery}
    (member : entry ∈ state.queue) (addr : SocketAddr) :
    (entry.destinationAddr == addr) = state.sentFrom addr entry := by
  rcases tracked.entry entry member with ⟨query, ⟨call, found, rfl⟩, entryEq⟩
  have recorded := congrArg OutstandingQuery.destinationAddr entryEq
  rw [sentFrom, found, Option.map_some, recorded]
  rfl

/-- What the service really does with an unknown packet. -/
theorem ServiceState.Tracked.receive_unknown (tracked : state.Tracked) (unknown : state.Unknown result) :
    service.step state (.receive result) =
      match state.queue.find? (state.sentFrom (QueryResult.base result).origin.addr) with
      | some entry => some (state.handOver entry result)
      | none => some state := by
  have noId : VecOps.removeFirst (fun entry => entry.transactionId == (QueryResult.base result).transactionId)
      state.queue = none :=
    VecOps.removeFirst_eq_none.mpr fun entry member => beq_eq_false_iff_ne.mpr (unknown entry member)
  have byOrigin : state.queue.find? (fun entry => entry.destinationAddr == (QueryResult.base result).origin.addr) =
      state.queue.find? (state.sentFrom (QueryResult.base result).origin.addr) :=
    List.find?_congr fun entry member => tracked.destinationAddr_eq member _
  rw [Service.step, removeFromQueue, noId, Option.none_or, VecOps.removeFirst_eq_find?, byOrigin]
  cases state.queue.find? (state.sentFrom (QueryResult.base result).origin.addr) <;> rfl

/-- Every entry has a call that it can complete. -/
theorem ServiceState.Tracked.completes (tracked : state.Tracked) {entry : OutstandingQuery} (member : entry ∈ state.queue)
    (result : QueryResult) : service.Completes state result entry := by
  rcases tracked.entry entry member with ⟨query, ⟨call, found, _⟩, _⟩
  have handed : (state.handOver entry result).deliveries[state.deliveries.length]? = some (entry.returnValue, result) :=
    List.getElem?_concat_length
  rcases Service.step_fulfil service handed found with ⟨next, fulfilled, queue, inCall, _⟩
  refine ⟨call, next, found, fulfilled, queue, inCall, fun waits => ?_⟩
  rcases Service.step_answered service inCall waits with ⟨done, answered, ended, _⟩
  exact ⟨done, answered, ended⟩

/-- Two entries that are handed the same packet with the same effect are one. -/
theorem ServiceState.Tracked.handOver_injective (tracked : state.Tracked) {first second : OutstandingQuery}
    (firstMember : first ∈ state.queue) (secondMember : second ∈ state.queue)
    (same : state.handOver first result = state.handOver second result) : first = second := by
  have deliveries := congrArg ServiceState.deliveries same
  have last := List.singleton_inj.mp (List.append_cancel_left deliveries)
  exact List.inj_on_of_nodup_map tracked.queue_nodup firstMember secondMember (Prod.mk.inj last).1

theorem ServiceState.handOver_ne (state : ServiceState) (entry : OutstandingQuery) (result : QueryResult) :
    state.handOver entry result ≠ state := by
  intro same
  have longer := congrArg List.length (congrArg ServiceState.deliveries same)
  rw [handOver, List.length_append] at longer
  exact absurd longer (Nat.succ_ne_self _)

/-- In every reachable state a packet with an unknown transaction id completes the
earliest query sent to its source, or is dropped, exactly when that query is also
the earliest one that was made from this address, or there is neither.  Whichever
query it is handed to, the packet gets into that query's call. -/
theorem falls_back_to_destination_iff {actions : List ServiceAction} (ran : service.run actions = some state)
    (unknown : state.Unknown result) :
    (service.FallsBackToDestination state result <->
      state.queue.find? (state.sentTo (QueryResult.base result).origin.addr) =
        state.queue.find? (state.sentFrom (QueryResult.base result).origin.addr)) ∧
    forall entry, entry ∈ state.queue -> service.Completes state result entry := by
  have tracked := tracked_run ran
  refine ⟨?_, fun entry member => tracked.completes member result⟩
  rw [Service.FallsBackToDestination, tracked.receive_unknown unknown]
  constructor
  · intro same
    cases byOrigin : state.queue.find? (state.sentFrom (QueryResult.base result).origin.addr) with
    | none =>
        cases byDestination : state.queue.find? (state.sentTo (QueryResult.base result).origin.addr) with
        | none => rfl
        | some entry =>
            rw [byOrigin, byDestination] at same
            exact absurd (Option.some.inj same).symm (state.handOver_ne entry result)
    | some taken =>
        cases byDestination : state.queue.find? (state.sentTo (QueryResult.base result).origin.addr) with
        | none =>
            rw [byOrigin, byDestination] at same
            exact absurd (Option.some.inj same) (state.handOver_ne taken result)
        | some entry =>
            rw [byOrigin, byDestination] at same
            have one := tracked.handOver_injective (List.mem_of_find?_eq_some byOrigin)
              (List.mem_of_find?_eq_some byDestination) (Option.some.inj same)
            rw [one]
  · intro agree
    rw [agree]

/-! The sample error carries no transaction id, and comes from the first contact. -/

namespace Sample

def blankError : QueryResult :=
  .error
    { error := ⟨203, "Protocol Error"⟩
      base :=
        { origin := .remote ⟨U160.min, first⟩
          destination := .me
          requestorAddr := none
          transactionId := [] } }

/-- One query is waiting for the first contact. -/
def waiting : List ServiceAction := [.start (ping [0, 1] first), .push 0, .send 0 none]

def waitingState : ServiceState where
  queue := [⟨[0, 1], .v4 0 1337, 0⟩]
  calls := [⟨ping [0, 1] first, .selecting, .pending⟩]
  deliveries := []

theorem run_waiting : messenger.run waiting = some waitingState := rfl

theorem unknown_blankError : waitingState.Unknown blankError := by
  intro entry member
  cases List.mem_singleton.mp member
  decide

end Sample

theorem falls_back_to_destination_iff_blank :
    Sample.messenger.run Sample.waiting = some Sample.waitingState ∧
      Sample.waitingState.Unknown Sample.blankError ∧
      ((Sample.messenger.FallsBackToDestination Sample.waitingState Sample.blankError <->
        Sample.waitingState.queue.find? (Sample.waitingState.sentTo Sample.first) =
          Sample.waitingState.queue.find? (Sample.waitingState.sentFrom Sample.first)) ∧
      forall entry, entry ∈ Sample.waitingState.queue ->
        Sample.messenger.Completes Sample.waitingState Sample.blankError entry) :=
  ⟨Sample.run_waiting, Sample.unknown_blankError,
    falls_back_to_destination_iff Sample.run_waiting Sample.unknown_blankError⟩

/-- The only query outstanding was sent to the source of the error, and the error
is dropped. -/
theorem blank_error_dropped :
    Sample.messenger.run Sample.waiting = some Sample.waitingState ∧
      Sample.waitingState.Unknown Sample.blankError ∧
      (Sample.waitingState.queue.map (Sample.waitingState.sentTo Sample.first) = [true]) ∧
      Sample.messenger.step Sample.waitingState (.receive Sample.blankError) = some Sample.waitingState ∧
      ¬Sample.messenger.FallsBackToDestination Sample.waitingState Sample.blankError := by
  have dropped : Sample.messenger.step Sample.waitingState (.receive Sample.blankError) =
      some Sample.waitingState := rfl
  refine ⟨Sample.run_waiting, Sample.unknown_blankError, rfl, dropped, fun falls => ?_⟩
  rw [Service.FallsBackToDestination, dropped] at falls
  exact Sample.waitingState.handOver_ne _ Sample.blankError (Option.some.inj falls).symm

end DhtExplorer
