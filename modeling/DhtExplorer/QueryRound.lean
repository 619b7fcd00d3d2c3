import DhtExplorer.MessageCodec
import DhtExplorer.NodeSystem
import DhtExplorer.ReplyWriting

namespace DhtExplorer

open BigEndian (Bytes)

/-!
# A query and its answer

What one node writes another one reads, so a call can be followed from its query to
the handler of the node it goes to, and back to the end of the call.  On the way a
message loses what the encoding cannot carry, and nothing else.
-/

/-- The kind as its receiver sees it. -/
def ResponseKind.received : ResponseKind -> ResponseKind
  | .peers addrs token nodes => .peers (addrs.map SocketAddr.plain) token nodes
  | .data base => if base.v.isSome then .data base else .ok
  | kind => kind

namespace Message

open Kmsg

/-- Any message as its receiver sees it. -/
def delivered (self : Message) (source : SocketAddr) : Message :=
  let base (id : U160) (requestorAddr : Option SocketAddr) : MessageBase :=
    { origin := .remote ⟨id, source⟩
      destination := .me
      requestorAddr := requestorAddr
      transactionId := self.base.transactionId
      readOnly := self.base.readOnly
      client := none }
  match self with
  | query q => .query ⟨q.method, base q.base.origin.id (some q.base.origin.addr.plain)⟩
  | response r => .response ⟨r.kind.received, base r.base.origin.id (r.base.requestorAddr.map SocketAddr.plain)⟩
  | error e => .error ⟨e.error, base U160.min none⟩

private theorem filterMap_plain (peers : List SocketAddr) :
    ((peers.map fun peer => SocketAddrWrapper.mk (some peer)).map SocketAddrWrapper.plain).filterMap
      SocketAddrWrapper.socketAddr = peers.map SocketAddr.plain := by
  rw [List.map_map, List.filterMap_map]
  exact congrFun List.filterMap_eq_map peers

theorem fromKmsg_plain (source : SocketAddr) (self : Message) :
    fromKmsg source self.toKmsg.plain = .ok (self.delivered source) := by
  cases self with
  | query q =>
      rcases q with ⟨method, base⟩
      cases method <;> rfl
  | error e => rfl
  | response r =>
      rcases r with ⟨kind, base⟩
      cases kind with
      | ok => rfl
      | kNearest nodes token => rfl
      | samples nodes samples available interval => rfl
      | data data =>
          rcases data with ⟨v, seq, k, sig⟩
          cases v <;> rfl
      | peers peers token nodes =>
          cases nodes <;>
          · change Except.ok (Message.response ⟨.peers (((peers.map fun peer => SocketAddrWrapper.mk (some peer)).map
              SocketAddrWrapper.plain).filterMap SocketAddrWrapper.socketAddr) token _, _⟩) = _
            rw [filterMap_plain]
            rfl

/-- Whatever can be written is read. -/
theorem receive_written {bencode : Bencode.Codec} {self : Message} {bytes : Bytes}
    (written : self.toBytes bencode = some bytes) (source : SocketAddr) :
    receive bencode bytes source = .ok (self.delivered source) := by
  rw [receive_of_wireForm (wireForm_written written), fromKmsg_plain]
  rfl

end Message

/-- The result as the call gets it. -/
def QueryResult.delivered (source : SocketAddr) (result : QueryResult) : QueryResult :=
  match (QueryResult.intoMessage result).delivered source with
  | .response response => .ok response
  | .error error => .error error
  | .query _ => result

theorem QueryResult.base_delivered (source : SocketAddr) (result : QueryResult) :
    (QueryResult.base (result.delivered source)).transactionId = (QueryResult.base result).transactionId := by
  cases result <;> rfl

/-- The query as the handler gets it. -/
def Query.delivered (source : SocketAddr) (query : Query) : Query where
  method := query.method
  base :=
    { origin := .remote ⟨query.base.origin.id, source⟩
      destination := .me
      requestorAddr := some query.base.origin.addr.plain
      transactionId := query.base.transactionId
      readOnly := query.base.readOnly }

variable {Store : Type} [PeerTree Store]

/-! ## The handler's side -/

namespace Server

variable {self : Server} {after : ServerState Store} {result : QueryResult}

/-- A reply of a table that holds IPv4 contacts only is sent to where the query came from. -/
theorem sent_handleReceived (query : Query) (datagram : Datagram) {node : NodeState Store} (writable : self.readOnly = false)
    (only : self.EntersIpv4 node.server ⟨query, datagram.chance, datagram.dbFails⟩)
    (works : datagram.fault = none) (table : Ipv4Only node.server.router)
    (handled : self.handleQuery node.server ⟨query, datagram.chance, datagram.dbFails⟩ = some (after, result)) :
    Exists fun packet => (QueryResult.intoMessage result).toBytes self.bencode = some packet ∧
      (Node.new self).handleReceived node datagram (.query query) =
        ⟨some { node with server := after }, [(packet, query.base.origin.addr)], false⟩ := by
  have isSome := (reply_written_iff handled).mpr fun nodes listed => table.listed only listed
  rcases Option.isSome_iff_exists.mp isSome with ⟨packet, written⟩
  refine ⟨packet, written, ?_⟩
  have inbound : (Node.new self).messenger.queriesInbound = true := congrArg not writable
  have destination : (QueryResult.intoMessage result).base.destination.toSocketAddr = some query.base.origin.addr := by
    rw [Message.base_intoMessage, base_handleQuery handled]
    exact Receiver.toSocketAddr_ofSender _
  have sent : (Node.new self).messenger.sendMessage (QueryResult.intoMessage result) none =
      some (.ok (packet, query.base.origin.addr)) := by
    unfold Service.sendMessage
    dsimp only
    rw [inbound, Bool.not_true, Bool.and_false, if_neg Bool.false_ne_true, destination]
    exact congrArg (Option.map _) written
  unfold Node.handleReceived
  dsimp only
  rw [inbound, if_pos rfl, show (Node.new self).server = self from rfl, handled, works]
  dsimp only
  rw [Service.sends, Service.packets, sent]
  rfl

end Server

/-! ## The caller's side -/

namespace Node

variable {self : Node} {start : UInt64} {state : NodeState Store} {entry : OutstandingQuery} {call : Call}

omit [PeerTree Store] in
/-- A result with the id of an open call ends it, as soon as it is handed over, and no
other call hears of it. -/
theorem ends_with (orderly : state.Orderly start) (member : entry ∈ state.messenger.queue)
    (found : state.messenger.calls[entry.returnValue]? = some call) (sent : call.phase = .selecting)
    {result : QueryResult} (sameId : (QueryResult.base result).transactionId = call.query.base.transactionId) :
    Exists fun next => self.returnResult state result = some next ∧ Exists fun done =>
      PartialRun.run self.step next
        [.messenger (.fulfil state.messenger.deliveries.length), .messenger (.answered entry.returnValue)] = some done ∧
      (Exists fun ended => done.messenger.calls[entry.returnValue]? = some ended ∧
        ended.phase = .returned (.received result)) ∧
      forall other, other ≠ entry.returnValue -> done.messenger.calls[other]? = state.messenger.calls[other]? := by
  have own : entry.transactionId = (QueryResult.base result).transactionId := by
    rw [orderly.tracked.own_entry member found, sameId]
    rfl
  rcases Node.delivers orderly member own with ⟨next, delivers⟩
  have received : Option.map (fun messenger => { state with messenger := messenger })
      (self.messenger.step state.messenger (.receive result)) = some { state with messenger := next } :=
    delivers.received
  have sameCalls : next.calls = state.messenger.calls := by
    rcases Option.map_eq_some_iff.mp received with ⟨messenger, moved, same⟩
    cases same
    cases stepped_of_step moved with
    | taken _ => rfl
    | ignored _ => rfl
  have handed : next.deliveries[state.messenger.deliveries.length]? = some (entry.returnValue, result) := by
    rw [delivers.deliveries]
    exact List.getElem?_concat_length
  rcases Service.step_fulfil self.messenger handed (sameCalls.symm ▸ found) with
    ⟨middle, fulfilled, _, waiting, others⟩
  rcases Service.step_answered self.messenger waiting sent with ⟨done, answered, ended, othersToo⟩
  refine ⟨_, received, { state with messenger := done }, PartialRun.run_cons_eq_some.mpr
    ⟨_, congrArg (Option.map _) fulfilled, PartialRun.run_cons_eq_some.mpr ⟨_, congrArg (Option.map _) answered, rfl⟩⟩,
    ended, fun other different => ?_⟩
  dsimp only
  rw [othersToo other different, others other different, sameCalls]

end Node

/-- A call that has been sent gets its answer: whatever the server has seen, as long as
its table holds IPv4 contacts only, it handles the query as it was asked; and if the
reply fits in a datagram, it goes to where the query came from, and ends the call with
the result of the handler, as soon as it is handed over.  Other calls may be open at the
same time, and stay as they are. -/
theorem query_answered (client : Node) (start : ServerState Store) (actions : List NodeAction) (state : NodeState Store)
    (ran : PartialRun.run client.step ⟨start, ServiceState.initial⟩ actions = some state)
    (timely : PartialRun.Permitted client.step client.Timely ⟨start, ServiceState.initial⟩ actions)
    (entry : OutstandingQuery) (member : entry ∈ state.messenger.queue) (call : Call)
    (found : state.messenger.calls[entry.returnValue]? = some call) (sent : call.phase = .selecting)
    (server : Server) (writable : server.readOnly = false) (sameCodec : client.messenger.bencode = server.bencode)
    (node : NodeState Store) (table : Server.Ipv4Only node.server.router) (arrivals : List Arrival)
    (stores : server.Stores arrivals node.server.peers) (bytes : Bytes)
    (written : (Message.query call.query).toBytes server.bencode = some bytes) (source target : SocketAddr)
    (ipv4 : call.query.base.readOnly = false -> (NodeInfo.mk call.query.base.origin.id source).IsIpv4) (chance : Chance) :
    Exists fun after => Exists fun result => Exists fun packet =>
      server.handleQuery node.server ⟨call.query.delivered source, chance, false⟩ = some (after, result) ∧
      (QueryResult.intoMessage result).toBytes server.bencode = some packet ∧
      (packet.length ≤ MAX_DATAGRAM ->
        (Node.new server).recv node ⟨bytes, source, chance, false, none⟩ =
          ⟨some { node with server := after }, [(packet, source)], false⟩ ∧
        forall reply : Datagram, reply.bytes = packet -> reply.source = target -> Exists fun next =>
          (client.recv state reply).next = some next ∧ Exists fun done =>
            PartialRun.run client.step next
              [.messenger (.fulfil state.messenger.deliveries.length), .messenger (.answered entry.returnValue)] =
                some done ∧
            (Exists fun ended => done.messenger.calls[entry.returnValue]? = some ended ∧
              ended.phase = .returned (.received (result.delivered target))) ∧
            forall other, other ≠ entry.returnValue ->
              done.messenger.calls[other]? = state.messenger.calls[other]?) := by
  have orderly := Node.orderly_run ran timely
  rcases Server.handleQuery_spec writable stores table.1 ⟨call.query.delivered source, chance, false⟩ with
    ⟨after, result, handled, _⟩
  rcases Server.sent_handleReceived (call.query.delivered source) ⟨bytes, source, chance, false, none⟩ writable
    (fun enters => ipv4 enters.2.1) rfl table handled with ⟨packet, replied, received⟩
  refine ⟨after, result, packet, handled, replied, fun _ => ⟨?_, ?_⟩⟩
  · unfold Node.recv
    rw [show Message.receive (Node.new server).messenger.bencode bytes source = _ from
      Message.receive_written written source]
    exact received
  · rintro reply rfl rfl
    have base : (QueryResult.base result).transactionId = call.query.base.transactionId := by
      rw [Server.base_handleQuery handled]
      rfl
    rcases Node.ends_with orderly member found sent ((result.base_delivered reply.source).trans base) with
      ⟨next, returned, done, run, ended, others⟩
    refine ⟨next, ?_, done, run, ended, others⟩
    unfold Node.recv
    rw [sameCodec, Message.receive_written replied reply.source]
    cases result with
    | ok response => exact returned
    | error error => exact returned

namespace Sample

/-- A read-only node with an id of its own. -/
def asker : Node := ⟨{ server with me := ⟨U160.new 0 1, .v4 0x01010101 6881⟩ }, messenger⟩

/-- The node has sent two queries to the server. -/
def pingsSent : List NodeAction :=
  [.query (.addr peerServer.me.addr) .ping, .query (.addr peerServer.me.addr) (.findNode U160.min),
    .messenger (.push 0), .messenger (.push 1), .messenger (.send 1 none), .messenger (.send 0 none)]

theorem pingsSent_timely :
    PartialRun.Permitted asker.step asker.Timely ⟨serverState, ServiceState.initial⟩ pingsSent := by
  have few : forall {count index : Nat}, count ≤ 1 -> count - index < 65536 := by
    intro count index small
    omega
  refine ⟨fun index _ => few (Nat.zero_le 1), fun next taken => ?_⟩
  cases taken
  refine ⟨fun index _ => few (Nat.le_refl 1), fun next taken => ?_⟩
  cases taken
  refine ⟨trivial, fun next taken => ?_⟩
  cases taken
  refine ⟨trivial, fun next taken => ?_⟩
  cases taken
  refine ⟨fun call found => ?_, fun next taken => ?_⟩
  · cases found
    exact asker.messenger.sendable rfl rfl
  cases taken
  refine ⟨fun call found => ?_, fun _ _ => trivial⟩
  cases found
  exact asker.messenger.sendable rfl rfl

end Sample

open Sample in
/-- The server answers a ping, and the asking node gets the answer.  Its other query
still waits. -/
theorem query_answered_ping :
    Exists fun bytes => Exists fun after => Exists fun response => Exists fun packet =>
      (Node.new peerServer).recv peerState ⟨bytes, asker.server.me.addr, ⟨0, 0, 0, 0, .reservoir fun _ => 0⟩, false, none⟩ =
        ⟨some ⟨after, ServiceState.initial⟩, [(packet, asker.server.me.addr)], false⟩ ∧
      response.kind = .ok ∧
      Exists fun state => Exists fun next => Exists fun done => Exists fun ended => Exists fun other =>
        PartialRun.run asker.step ⟨serverState, ServiceState.initial⟩ pingsSent = some state ∧
        (asker.recv state ⟨packet, peerServer.me.addr, ⟨0, 0, 0, 0, .reservoir fun _ => 0⟩, false, none⟩).next = some next ∧
        PartialRun.run asker.step next [.messenger (.fulfil 0), .messenger (.answered 0)] = some done ∧
        done.messenger.calls[0]? = some ended ∧ ended.phase = .returned (.received (.ok response)) ∧
        done.messenger.calls[1]? = some other ∧ other.phase = .selecting := by
  have ran : Exists fun state => Exists fun entry => Exists fun call => Exists fun other =>
      PartialRun.run asker.step ⟨serverState, ServiceState.initial⟩ pingsSent = some state ∧
      entry ∈ state.messenger.queue ∧ entry.returnValue = 0 ∧ state.messenger.deliveries = [] ∧
      state.messenger.calls[0]? = some call ∧ call.phase = .selecting ∧ call.query =
        (asker.buildQuery serverState (.addr peerServer.me.addr) .ping).1 ∧
      state.messenger.calls[1]? = some other ∧ other.phase = .selecting :=
    ⟨_, _, _, _, rfl, List.mem_cons_self, rfl, rfl, rfl, rfl, rfl, rfl, rfl⟩
  rcases ran with ⟨state, entry, call, other, ran, queued, number, noDeliveries, found, sent, asks, otherFound, waits⟩
  have table : Server.Ipv4Only peerState.server.router :=
    ⟨(Router.reachable_new _).sound, fun _ member => absurd member List.not_mem_nil⟩
  have encodable : (Message.query call.query).Encodable := asks ▸ rfl
  rcases Message.receive_encodable peerServer.bencode encodable peerServer.me.addr with ⟨bytes, written, _⟩
  rcases query_answered asker serverState pingsSent state ran pingsSent_timely entry queued call (number ▸ found) sent
    peerServer rfl rfl peerState table [] peerServer.stores_empty bytes written asker.server.me.addr peerServer.me.addr
    (fun _ => trivial) ⟨0, 0, 0, 0, .reservoir fun _ => 0⟩ with ⟨after, result, packet, handled, replied, arrives⟩
  rw [asks] at handled
  cases handled
  have fits : packet.length ≤ MAX_DATAGRAM := by
    cases replied
    decide +kernel
  rcases (arrives fits).2 ⟨packet, peerServer.me.addr, ⟨0, 0, 0, 0, .reservoir fun _ => 0⟩, false, none⟩ rfl rfl with
    ⟨next, back, done, run, ⟨ended, endedFound, phase⟩, others⟩
  rw [noDeliveries, number] at run
  rw [number] at endedFound
  have unchanged := others 1 (by rw [number]; exact Nat.one_ne_zero)
  exact ⟨bytes, _, _, packet, (arrives fits).1, rfl, state, next, done, ended, other, ran, back, run, endedFound, phase,
    unchanged.trans otherFound, waits⟩

end DhtExplorer
