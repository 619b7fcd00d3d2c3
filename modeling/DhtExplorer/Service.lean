import DhtExplorer.Library.PartialRun
import DhtExplorer.Library.VecOps
import DhtExplorer.Message

namespace DhtExplorer

open BigEndian (Bytes)

/-!
# The messenger service

Queries in flight share one queue.  A query pushes its entry, sends its packet,
and then waits for its channel or its timer.  Whoever removes an entry owns the
sending end of the channel behind it: an incoming packet fulfils the channel in
a step of its own, and a timeout drops it, which the waiting end sees as closed.

Every critical section is one action, so the actions of a run are an arbitrary
interleaving of calls, packets and timers.  The semaphore in front of `query`
only delays a call before its entry is pushed.  Packet numbers and timestamps
serve logging alone and are left out.
-/

structure OutstandingQuery where
  transactionId : Bytes
  destinationAddr : SocketAddr
  returnValue : Nat
deriving DecidableEq, Repr

/-- The entry a call pushes.  The sending end of its channel is the call's number. -/
def OutstandingQuery.ofQuery (query : Query) (call : Nat) : OutstandingQuery where
  transactionId := query.base.transactionId
  destinationAddr := query.base.origin.addr
  returnValue := call

/-- The first entry with the transaction id, or else the first with the address. -/
def removeFromQueue (queue : List OutstandingQuery) (id : Bytes) (queriedAddr : SocketAddr) :
    Option (OutstandingQuery × List OutstandingQuery) :=
  (VecOps.removeFirst (fun entry => entry.transactionId == id) queue).or
    (VecOps.removeFirst (fun entry => entry.destinationAddr == queriedAddr) queue)

/-! ## Sending one message -/

/-- Failures that come from outside: the encoder or the socket refuses. -/
inductive SendFault where
  | encoding (cause : String)
  | socket (cause : String)
deriving DecidableEq, Repr

structure Service where
  bencode : Bencode.Codec
  queriesInbound : Bool

/-- The packet and its address, or the text of the failure.  There is no result
where the encoder panics. -/
def Service.sendMessage (self : Service) (message : Message) (fault : Option SendFault) :
    Option (Except String (Bytes × SocketAddr)) :=
  if !message.base.readOnly && !self.queriesInbound then
    some (.error "read only false but no query handler available")
  else
    match fault with
    | some (.encoding cause) => some (.error ("error serializing message, " ++ cause))
    | _ =>
        (message.toBytes self.bencode).map fun slice =>
          match message.base.destination.toSocketAddr with
          | none => .error "You probably didn't mean to message yourself like this"
          | some addr =>
              match fault with
              | some (.socket cause) => .error ("Send failed, " ++ cause)
              | _ => .ok (slice, addr)

/-! ## Calls, channels and the shared queue -/

/-- How a call came back: with what it received, or with an error of its own. -/
inductive Outcome where
  | received (result : QueryResult)
  | failed (error : Error)

inductive Phase where
  | built
  | sending
  | selecting
  | expired
  | returned (outcome : Outcome)

/-- The receiving end of a call's channel. -/
inductive Channel where
  | pending
  | value (result : QueryResult)
  | closed

structure Call where
  query : Query
  phase : Phase
  channel : Channel

structure ServiceState where
  queue : List OutstandingQuery
  calls : List Call
  /-- Entries taken out of the queue by a packet that is yet to be handed over. -/
  deliveries : List (Nat × QueryResult)

def ServiceState.initial : ServiceState := ⟨[], [], []⟩

inductive ServiceAction where
  | start (query : Query)
  | push (call : Nat)
  | send (call : Nat) (fault : Option SendFault)
  | receive (result : QueryResult)
  | fulfil (index : Nat)
  | answered (call : Nat)
  | expire (call : Nat)
  | removeExpired (call : Nat)

namespace Call

/-- The receiving end exists until the call returns or its timer is chosen. -/
def listening (self : Call) : Bool :=
  match self.phase with
  | .built | .sending | .selecting => true
  | .expired | .returned _ => false

def fulfilled (self : Call) (result : QueryResult) : Call :=
  if self.listening then { self with channel := .value result } else self

/-- The sending end was dropped. -/
def dropped (self : Call) : Call :=
  if self.listening then { self with channel := .closed } else self

def fails (self : Call) (description : String) : Call :=
  { self with phase := .returned (.failed (self.query.base.intoErrorGeneric description)) }

end Call

namespace Service

/-- One step of one call, packet or timer. -/
def step (self : Service) (state : ServiceState) : ServiceAction -> Option ServiceState
  | .start query =>
      some { state with calls := state.calls ++ [{ query := query, phase := .built, channel := .pending }] }
  | .push index =>
      state.calls[index]?.bind fun call =>
        match call.phase with
        | .built =>
            some
              { state with
                queue := state.queue ++ [OutstandingQuery.ofQuery call.query index]
                calls := state.calls.set index { call with phase := .sending } }
        | _ => none
  | .send index fault =>
      state.calls[index]?.bind fun call =>
        match call.phase with
        | .sending =>
            (self.sendMessage (.query call.query) fault).map fun sent =>
              match sent with
              | .ok _ => { state with calls := state.calls.set index { call with phase := .selecting } }
              | .error description => { state with calls := state.calls.set index (call.fails description) }
        | _ => none
  | .receive result =>
      match removeFromQueue state.queue (QueryResult.base result).transactionId
          (QueryResult.base result).origin.addr with
      | some (waiting, queue) =>
          some
            { state with
              queue := queue, deliveries := state.deliveries ++ [(waiting.returnValue, result)] }
      | none => some state
  | .fulfil index =>
      state.deliveries[index]?.map fun (call, result) =>
        { state with
          deliveries := state.deliveries.eraseIdx index
          calls := state.calls.modify call fun call => call.fulfilled result }
  | .answered index =>
      state.calls[index]?.bind fun call =>
        match call.phase, call.channel with
        | .selecting, .value result =>
            some
              { state with calls := state.calls.set index { call with phase := .returned (.received result) } }
        | .selecting, .closed =>
            some { state with calls := state.calls.set index (call.fails "channel closed") }
        | _, _ => none
  | .expire index =>
      state.calls[index]?.bind fun call =>
        match call.phase with
        | .selecting => some { state with calls := state.calls.set index { call with phase := .expired } }
        | _ => none
  | .removeExpired index =>
      state.calls[index]?.bind fun call =>
        match call.phase with
        | .expired =>
            match removeFromQueue state.queue call.query.base.transactionId call.query.base.origin.addr with
            | some (removed, queue) =>
                some
                  { state with
                    queue := queue
                    calls := (state.calls.modify removed.returnValue Call.dropped).set index
                      (call.fails "Timeout") }
            | none => some { state with calls := state.calls.set index (call.fails "Timeout") }
        | _ => none

def run (self : Service) (actions : List ServiceAction) : Option ServiceState :=
  PartialRun.run self.step ServiceState.initial actions

end Service
end DhtExplorer
