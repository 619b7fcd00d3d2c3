import DhtExplorer.Kmsg.Written
import DhtExplorer.NodeQueries
import DhtExplorer.PeerStore

namespace DhtExplorer

open BigEndian (Bytes)

/-!
# The receive path

Every datagram is decoded and dispatched: queries go to the handler, responses
and errors to the calls that wait for them, and what has a wire form but is no
message is answered with an error.  Malformed packets of every type are answered,
so two nodes could answer each other forever.  They do not, because whatever a
handler replies is written as a well-formed response or error, which its
receiver never answers.

Handling a query is one step here.  The reply depends on the state, but its kind,
its destination and its transaction id do not.
-/

abbrev Packet := Bytes × SocketAddr

/-- A datagram with its surroundings: the clock and the random draws, whether the
operations on the store succeed, and whether the reply can be sent. -/
structure Datagram where
  bytes : Bytes
  source : SocketAddr
  chance : Chance
  dbFails : Bool := false
  fault : Option SendFault := none

/-- The state afterwards, the packets sent, and whether the task behind the datagram
panics.  There is no state where its handler does.  The writer of the reply comes last,
and its panic leaves the state to the node's other tasks. -/
structure Reception (Store : Type) where
  next : Option (NodeState Store)
  sent : List Packet
  panics : Bool

variable {Store : Type} [PeerTree Store]

/-- The packets that sending one message puts on the wire. -/
def Service.packets (self : Service) (message : Message) (fault : Option SendFault) : List Packet :=
  match self.sendMessage message fault with
  | some (.ok packet) => [packet]
  | _ => []

/-- A message is sent from a state. -/
def Service.sends (self : Service) (state : NodeState Store) (message : Message) (fault : Option SendFault) :
    Reception Store where
  next := some state
  sent := self.packets message fault
  panics := (self.sendMessage message fault).isNone

namespace Node

/-- The call that waits for the result gets it, if there is one. -/
def returnResult (self : Node) (state : NodeState Store) (result : QueryResult) : Option (NodeState Store) :=
  self.step state (.messenger (.receive result))

/-- Nothing is sent. -/
def quiet (next : Option (NodeState Store)) : Reception Store := { next := next, sent := [], panics := next.isNone }

def handleReceived (self : Node) (state : NodeState Store) (datagram : Datagram) : Message -> Reception Store
  | .query query =>
      if self.messenger.queriesInbound then
        match self.server.handleQuery state.server ⟨query, datagram.chance, datagram.dbFails⟩ with
        | some (server, result) =>
            self.messenger.sends { state with server := server } (QueryResult.intoMessage result) datagram.fault
        | none => quiet none
      else quiet (some state)
  | .response response => quiet (self.returnResult state (.ok response))
  | .error error => quiet (self.returnResult state (.error error))

/-- One round of the loop: the result of one datagram. -/
def recv (self : Node) (state : NodeState Store) (datagram : Datagram) : Reception Store :=
  match Message.receive self.messenger.bencode datagram.bytes datagram.source with
  | .ok message => self.handleReceived state datagram message
  | .error (some raw, cause) =>
      if self.messenger.queriesInbound then
        self.messenger.sends state (.error (self.server.handleError raw.transactionId datagram.source cause))
          datagram.fault
      else quiet (some state)
  | .error (none, _) => quiet (some state)

end Node

/-! ## What is sent -/

/-- What is sent is the message, to its destination. -/
theorem Service.sendMessage_ok {self : Service} {message : Message} {fault : Option SendFault} {packet : Packet}
    (ok : self.sendMessage message fault = some (.ok packet)) :
    message.toBytes self.bencode = some packet.1 ∧ message.base.destination.toSocketAddr = some packet.2 := by
  unfold sendMessage at ok
  split at ok
  · cases ok
  · split at ok
    · cases ok
    · rcases Option.map_eq_some_iff.mp ok with ⟨slice, written, sent⟩
      cases destination : message.base.destination.toSocketAddr with
      | none =>
          rw [destination] at sent
          cases sent
      | some addr =>
          rw [destination] at sent
          dsimp only at sent
          split at sent
          · cases sent
          · cases sent
            exact ⟨written, rfl⟩

/-- The writer is reached unless the encoder refuses before. -/
theorem Service.sendMessage_eq_none_iff {self : Service} {message : Message} {fault : Option SendFault}
    (answers : self.queriesInbound = true) : self.sendMessage message fault = none <->
      (forall cause, fault ≠ some (.encoding cause)) ∧ message.toBytes self.bencode = none := by
  unfold sendMessage
  rw [answers, Bool.not_true, Bool.and_false, if_neg Bool.false_ne_true]
  split
  · rename_i cause
    exact iff_of_false (by simp) fun both => both.1 cause rfl
  · rename_i notRefused
    rw [Option.map_eq_none_iff, and_iff_right notRefused]

theorem Service.length_packets (self : Service) (message : Message) (fault : Option SendFault) :
    (self.packets message fault).length ≤ 1 := by
  unfold packets
  split
  · exact Nat.le_refl 1
  · exact Nat.zero_le 1

theorem Service.sendMessage_of_mem {self : Service} {message : Message} {fault : Option SendFault} {packet : Packet}
    (sent : packet ∈ self.packets message fault) : self.sendMessage message fault = some (.ok packet) := by
  unfold packets at sent
  split at sent
  · rename_i only ok
    rw [List.mem_singleton.mp sent]
    exact ok
  · cases sent

namespace Server

/-- Everything the handler returns rests on the reply's base. -/
theorem base_handleAnnounce {self : Server} {peers after : Store} {arrival : Arrival} {responseBase : MessageBase}
    {origin : NodeInfo} {infoHash : U160} {port : UInt16} {token : Bytes} {result : QueryResult}
    (handled : self.handleAnnounce peers arrival responseBase origin infoHash port token = some (after, result)) :
    QueryResult.base result = responseBase := by
  unfold handleAnnounce at handled
  split at handled
  · cases handled
    rfl
  · split at handled
    · cases handled
      rfl
    · split at handled
      · cases handled
        rfl
      · rcases Option.map_eq_some_iff.mp handled with ⟨socks, _, equal⟩
        cases equal
        rfl

theorem base_handleGetPeers {self : Server} {state : ServerState Store} {arrival : Arrival} {responseBase : MessageBase}
    {origin : NodeInfo} {infoHash : U160} {result : QueryResult}
    (handled : self.handleGetPeers state arrival responseBase origin infoHash = some result) :
    QueryResult.base result = responseBase := by
  unfold handleGetPeers at handled
  dsimp only at handled
  split at handled
  · cases handled
    rfl
  · split at handled
    · rcases Option.bind_eq_some_iff.mp handled with ⟨socks, _, afterSocks⟩
      rcases Option.bind_eq_some_iff.mp afterSocks with ⟨peers, _, afterPeers⟩
      rcases Option.bind_eq_some_iff.mp afterPeers with ⟨nodes, _, equal⟩
      cases equal
      rfl
    · rcases Option.bind_eq_some_iff.mp handled with ⟨nodes, _, equal⟩
      cases equal
      rfl

theorem base_handleSample {state : ServerState Store} {arrival : Arrival} {responseBase : MessageBase} {target : U160}
    {result : QueryResult} (handled : handleSample state arrival responseBase target = some result) :
    QueryResult.base result = responseBase := by
  unfold handleSample at handled
  split at handled
  · cases handled
    rfl
  · rcases Option.map_eq_some_iff.mp handled with ⟨nodes, _, equal⟩
    cases equal
    rfl

theorem base_answer {self : Server} {state after : ServerState Store} {arrival : Arrival} {responseBase : MessageBase}
    {result : QueryResult} (answered : self.answer state arrival responseBase = some (after, result)) :
    QueryResult.base result = responseBase := by
  unfold answer at answered
  cases method : arrival.query.method with
  | ping | put base | get =>
      rw [method] at answered
      cases answered
      rfl
  | findNode target =>
      rw [method] at answered
      rcases Option.map_eq_some_iff.mp answered with ⟨nodes, _, equal⟩
      cases equal
      rfl
  | getPeers infoHash =>
      rw [method] at answered
      rcases Option.map_eq_some_iff.mp answered with ⟨inner, handled, equal⟩
      cases equal
      exact base_handleGetPeers handled
  | announcePeer infoHash port token =>
      rw [method] at answered
      rcases Option.map_eq_some_iff.mp answered with ⟨inner, handled, equal⟩
      cases equal
      exact base_handleAnnounce handled
  | sampleInfohashes target =>
      rw [method] at answered
      rcases Option.map_eq_some_iff.mp answered with ⟨inner, handled, equal⟩
      cases equal
      exact base_handleSample handled

/-- A query is answered under its transaction id, at the address it came from. -/
theorem base_handleQuery {self : Server} {state after : ServerState Store} {arrival : Arrival} {result : QueryResult}
    (handled : self.handleQuery state arrival = some (after, result)) :
    QueryResult.base result = self.responseBase arrival.query.base.transactionId
      (Receiver.ofSender arrival.query.base.origin) := by
  unfold handleQuery at handled
  dsimp only at handled
  split at handled
  · cases handled
  · split at handled
    · cases handled
      rfl
    · rcases Option.bind_eq_some_iff.mp handled with ⟨router, _, answered⟩
      exact base_answer answered

end Server

/-! ## What is received -/

namespace Message

open Kmsg

/-- The wire form of a datagram. -/
def wireForm (bencode : Bencode.Codec) (bytes : Bytes) : Option KMessage :=
  (bencode.fromSlice bytes).bind (KMessage.deserialize (bencode.stray bytes))

theorem receive_of_wireForm {bencode : Bencode.Codec} {bytes : Bytes} {kmsg : KMessage} {source : SocketAddr}
    (read : wireForm bencode bytes = some kmsg) :
    receive bencode bytes source = (fromKmsg source kmsg).mapError fun cause => (some kmsg, cause) := by
  rw [wireForm] at read
  rw [receive, read]
  dsimp only
  cases fromKmsg source kmsg <;> rfl

theorem receive_of_no_wireForm {bencode : Bencode.Codec} {bytes : Bytes} {source : SocketAddr}
    (unread : wireForm bencode bytes = none) : receive bencode bytes source = .error (none, .server) := by
  rw [wireForm] at unread
  rw [receive, unread]

/-- Responses and errors are the messages that are never answered. -/
def IsReply : Message -> Prop
  | query _ => False
  | response _ => True
  | error _ => True

theorem isReply_intoMessage (result : QueryResult) : (QueryResult.intoMessage result).IsReply := by
  cases result <;> trivial

theorem base_intoMessage (result : QueryResult) : (QueryResult.intoMessage result).base = QueryResult.base result := by
  cases result <;> rfl

/-- A received message has the transaction id of its wire form and the address it
came from. -/
theorem base_fromKmsg {source : SocketAddr} {kmsg : KMessage} {message : Message}
    (accepted : fromKmsg source kmsg = .ok message) :
    message.base.transactionId = kmsg.transactionId ∧ message.base.origin.addr = source := by
  unfold fromKmsg at accepted
  dsimp only at accepted
  split at accepted
  · rcases Kmsg.bind_eq_ok.mp accepted with ⟨cause, _, equal⟩
    cases equal
    exact ⟨rfl, rfl⟩
  · split at accepted
    · split at accepted
      · rcases Kmsg.bind_eq_ok.mp accepted with ⟨name, _, named⟩
        rcases Kmsg.bind_eq_ok.mp named with ⟨method, _, equal⟩
        cases equal
        exact ⟨rfl, rfl⟩
      · cases accepted
    · split at accepted
      · split at accepted
        · rcases Kmsg.bind_eq_ok.mp accepted with ⟨kind, _, equal⟩
          cases equal
          exact ⟨rfl, rfl⟩
        · cases accepted
      · cases accepted

/-- What a response or an error holds decides only which response it is read as. -/
theorem fromKmsg_reply (source : SocketAddr) {self : Message} (reply : self.IsReply) :
    Exists fun received => fromKmsg source self.toKmsg.plain = .ok received ∧ received.IsReply := by
  cases self with
  | query q => cases reply
  | error e => exact ⟨_, rfl, trivial⟩
  | response r =>
      rcases r with ⟨kind, base⟩
      cases kind with
      | ok => exact ⟨_, rfl, trivial⟩
      | kNearest nodes token => exact ⟨_, rfl, trivial⟩
      | peers peers token nodes => cases nodes <;> exact ⟨_, rfl, trivial⟩
      | data data =>
          rcases data with ⟨v, seq, k, sig⟩
          cases v <;> exact ⟨_, rfl, trivial⟩
      | samples nodes samples available interval => exact ⟨_, rfl, trivial⟩

theorem transactionId_toKmsg (self : Message) : self.toKmsg.transactionId = self.base.transactionId := by
  cases self with
  | query q =>
      rcases q with ⟨method, base⟩
      cases method <;> rfl
  | response r =>
      rcases r with ⟨kind, base⟩
      cases kind <;> rfl
  | error e => rfl

/-- Whatever is written has a wire form again, under the same transaction id. -/
theorem wireForm_written {bencode : Bencode.Codec} {self : Message} {bytes : Bytes}
    (written : self.toBytes bencode = some bytes) : wireForm bencode bytes = some self.toKmsg.plain := by
  rcases Option.map_eq_some_iff.mp written with ⟨value, serialized, rfl⟩
  rcases KMessage.deserialize_written serialized with ⟨canonical, back⟩
  rw [wireForm, bencode.faithful value canonical]
  exact back _

/-- A reply that can be written is a reply to its receiver. -/
theorem receive_reply {bencode : Bencode.Codec} {self : Message} {bytes : Bytes} (reply : self.IsReply)
    (written : self.toBytes bencode = some bytes) (source : SocketAddr) :
    Exists fun received => receive bencode bytes source = .ok received ∧ received.IsReply := by
  rcases fromKmsg_reply source reply with ⟨received, recovered, receivedReply⟩
  refine ⟨received, ?_, receivedReply⟩
  rw [receive_of_wireForm (wireForm_written written), recovered]
  rfl

end Message

/-! ## Every packet is a reply -/

/-- The packet answers the datagram: a response or an error under its transaction
id, sent to where it came from. -/
structure Node.Replies (node : Node) (datagram : Datagram) (packet : Packet) : Prop where
  written : Exists fun message => Message.IsReply message ∧
    message.toBytes node.messenger.bencode = some packet.1
  destination : packet.2 = datagram.source
  transactionId : Exists fun asked => Exists fun reply =>
    Message.wireForm node.messenger.bencode datagram.bytes = some asked ∧
    Message.wireForm node.messenger.bencode packet.1 = some reply ∧ reply.transactionId = asked.transactionId

theorem Receiver.toSocketAddr_ofSender (sender : Sender) :
    (Receiver.ofSender sender).toSocketAddr = some sender.addr := by
  cases sender <;> rfl

namespace Node

variable {self : Node} {state : NodeState Store} {datagram : Datagram} {packet : Packet}

/-- A reply on the base of a response to the datagram's wire form. -/
private theorem replies_of_base {message : Message} {asked : Kmsg.KMessage} {receiver : Receiver}
    (sent : packet ∈ self.messenger.packets message datagram.fault) (reply : message.IsReply)
    (read : Message.wireForm self.messenger.bencode datagram.bytes = some asked)
    (base : message.base = self.server.responseBase asked.transactionId receiver)
    (source : receiver.toSocketAddr = some datagram.source) : self.Replies datagram packet := by
  rcases Service.sendMessage_ok (Service.sendMessage_of_mem sent) with ⟨written, destination⟩
  refine ⟨⟨message, reply, written⟩, ?_, asked, message.toKmsg.plain, read, Message.wireForm_written written, ?_⟩
  · rw [base] at destination
    exact Option.some.inj (destination.symm.trans source)
  · change message.toKmsg.transactionId = asked.transactionId
    rw [message.transactionId_toKmsg, base]
    rfl

private theorem replies_of_handleReceived {asked : Kmsg.KMessage} {message : Message}
    (read : Message.wireForm self.messenger.bencode datagram.bytes = some asked)
    (accepted : Message.fromKmsg datagram.source asked = .ok message)
    (sent : packet ∈ (self.handleReceived state datagram message).sent) : self.Replies datagram packet := by
  rcases Message.base_fromKmsg accepted with ⟨sameId, sameSource⟩
  cases message with
  | response response => cases sent
  | error error => cases sent
  | query query =>
      unfold handleReceived at sent
      dsimp only at sent
      split at sent
      · split at sent
        · rename_i server result handled
          have base : (QueryResult.intoMessage result).base =
              self.server.responseBase asked.transactionId (Receiver.ofSender query.base.origin) := by
            rw [Message.base_intoMessage, Server.base_handleQuery handled, <- sameId]
            rfl
          have source : (Receiver.ofSender query.base.origin).toSocketAddr = some datagram.source := by
            rw [Receiver.toSocketAddr_ofSender]
            exact congrArg some sameSource
          exact replies_of_base sent (Message.isReply_intoMessage result) read base source
        · cases sent
      · cases sent

/-- Whatever is sent answers the datagram. -/
theorem replies_of_mem_sent (sent : packet ∈ (self.recv state datagram).sent) : self.Replies datagram packet := by
  unfold recv at sent
  cases read : Message.wireForm self.messenger.bencode datagram.bytes with
  | none =>
      rw [Message.receive_of_no_wireForm read] at sent
      cases sent
  | some raw =>
      rw [Message.receive_of_wireForm read] at sent
      cases accepted : Message.fromKmsg datagram.source raw with
      | ok message =>
          rw [accepted] at sent
          exact replies_of_handleReceived read accepted sent
      | error cause =>
          rw [accepted] at sent
          dsimp only [Except.mapError] at sent
          split at sent
          · exact replies_of_base sent trivial read rfl rfl
          · cases sent

theorem length_handleReceived (self : Node) (state : NodeState Store) (datagram : Datagram) (message : Message) :
    (self.handleReceived state datagram message).sent.length ≤ 1 := by
  cases message with
  | response response => exact Nat.zero_le 1
  | error error => exact Nat.zero_le 1
  | query query =>
      unfold handleReceived
      dsimp only
      split
      · split
        · exact self.messenger.length_packets _ _
        · exact Nat.zero_le 1
      · exact Nat.zero_le 1

theorem length_sent (self : Node) (state : NodeState Store) (datagram : Datagram) :
    (self.recv state datagram).sent.length ≤ 1 := by
  unfold recv
  split
  · exact self.length_handleReceived state datagram _
  · split
    · exact self.messenger.length_packets _ _
    · exact Nat.zero_le 1
  · exact Nat.zero_le 1

/-- A reply is not answered. -/
theorem sent_of_isReply {received : Message} (reply : received.IsReply)
    (decoded : Message.receive self.messenger.bencode datagram.bytes datagram.source = .ok received) :
    (self.recv state datagram).sent = [] := by
  unfold recv
  rw [decoded]
  cases received with
  | query query => cases reply
  | response response => rfl
  | error error => rfl

/-- What answers a datagram is answered by nobody. -/
theorem Replies.unanswered {other : Node} (replies : self.Replies datagram packet)
    (sameCodec : other.messenger.bencode = self.messenger.bencode) (state : NodeState Store) {echo : Datagram}
    (carries : echo.bytes = packet.1) : (other.recv state echo).sent = [] := by
  rcases replies.written with ⟨message, reply, written⟩
  rcases Message.receive_reply reply written echo.source with ⟨received, decoded, receivedReply⟩
  apply sent_of_isReply receivedReply
  rw [sameCodec, carries]
  exact decoded

end Node

/-- Every datagram is answered by at most one packet, which carries its
transaction id to its source, and no node answers that packet in turn. -/
theorem no_reply_loops (self : Node) (state : NodeState Store) (datagram : Datagram) :
    (self.recv state datagram).sent.length ≤ 1 ∧
      forall packet, packet ∈ (self.recv state datagram).sent ->
        self.Replies datagram packet ∧
        forall (other : Node) (otherState : NodeState Store) (echo : Datagram),
          other.messenger.bencode = self.messenger.bencode -> echo.bytes = packet.1 ->
          (other.recv otherState echo).sent = [] := by
  refine ⟨self.length_sent state datagram, fun packet sent => ?_⟩
  have replies := Node.replies_of_mem_sent sent
  exact ⟨replies, fun other otherState echo sameCodec carries => replies.unanswered sameCodec otherState carries⟩

namespace Sample

/-- A node that answers queries. -/
def peerNode : Node := ⟨peerServer, ⟨Bencode.textCodec, true⟩⟩

def peerState : NodeState MemoryTree := ⟨⟨Router.new peerServer.me, 0, ∅⟩, ServiceState.initial⟩

/-- A query that says neither what it asks nor who asks it. -/
def emptyQuery : Kmsg.KMessage := { transactionId := [97, 97], messageType := Kmsg.Y_QUERY }

def emptyQueryReceived : Datagram where
  bytes := Bencode.textCodec.toVec (Bencode.record (emptyQuery.fields none))
  source := .v4 0x7f000001 1338
  chance := ⟨0, 0, 0, 0, .reservoir fun _ => 0⟩

theorem emptyQuery_refused :
    Message.receive peerNode.messenger.bencode emptyQueryReceived.bytes emptyQueryReceived.source =
      .error (some emptyQuery, .protocol) := by
  have serialized : emptyQuery.serialize = some (Bencode.record (emptyQuery.fields none)) := rfl
  rcases Kmsg.KMessage.deserialize_written serialized with ⟨canonical, back⟩
  have read : Message.wireForm peerNode.messenger.bencode emptyQueryReceived.bytes = some emptyQuery := by
    change (Bencode.textCodec.fromSlice (Bencode.textCodec.toVec _)).bind _ = _
    rw [Bencode.textCodec.faithful _ canonical]
    exact back _
  rw [Message.receive_of_wireForm read]
  rfl

end Sample

/-- A malformed query is answered with an error, and the error with nothing. -/
theorem no_reply_loops_malformed :
    Exists fun packet => packet ∈ (Sample.peerNode.recv Sample.peerState Sample.emptyQueryReceived).sent ∧
      Sample.peerNode.Replies Sample.emptyQueryReceived packet ∧
      (Sample.peerNode.recv Sample.peerState { Sample.emptyQueryReceived with bytes := packet.1 }).sent = [] := by
  have answered : Exists fun packet =>
      packet ∈ (Sample.peerNode.recv Sample.peerState Sample.emptyQueryReceived).sent := by
    unfold Node.recv
    rw [Sample.emptyQuery_refused]
    exact ⟨_, List.mem_singleton.mpr rfl⟩
  rcases answered with ⟨packet, sent⟩
  have both := (no_reply_loops Sample.peerNode Sample.peerState Sample.emptyQueryReceived).2 packet sent
  exact ⟨packet, sent, both.1, both.2 Sample.peerNode Sample.peerState _ rfl rfl⟩

end DhtExplorer
