import DhtExplorer.Library.BencodeText
import DhtExplorer.Message

namespace DhtExplorer

open BigEndian (Bytes)

/-!
# The message codec round trip

A message is spread over optional fields when it is sent, and its kind is
recovered from the fields that are present when it is received.  The round trip
is proved in the same two steps: the recovery inverts the spreading for every
kind, and the wire form of every message can be written and read back.
-/

namespace Message

open Kmsg

/-- What the encoding can carry: IPv4 contact lists, addresses that are an IP
and a port, and data responses with a value. -/
def Encodable : Message -> Prop
  | query q => q.base.origin.addr.Plain
  | response r =>
      (forall addr, r.base.requestorAddr = some addr -> addr.Plain) ∧
      match r.kind with
      | .ok => True
      | .kNearest nodes _ => forall node, node ∈ nodes -> node.IsIpv4
      | .peers peers _ nodes =>
          (forall peer, peer ∈ peers -> peer.Plain) ∧
          forall list, nodes = some list -> forall node, node ∈ list -> node.IsIpv4
      | .data base => base.v.isSome = true
      | .samples nodes _ _ _ => forall node, node ∈ nodes -> node.IsIpv4
  | error _ => True

/-- The message as its receiver sees it.  The sender's id is known for queries
and responses only, and an error does not report the requestor's address. -/
def received (self : Message) (source : SocketAddr) : Message :=
  let base (id : U160) (requestorAddr : Option SocketAddr) : MessageBase :=
    { origin := .remote ⟨id, source⟩
      destination := .me
      requestorAddr := requestorAddr
      transactionId := self.base.transactionId
      readOnly := self.base.readOnly
      client := none }
  match self with
  | query q => .query ⟨q.method, base q.base.origin.id (some q.base.origin.addr)⟩
  | response r => .response ⟨r.kind, base r.base.origin.id r.base.requestorAddr⟩
  | error e => .error ⟨e.error, base U160.min none⟩

/-! ## The kind is recovered -/

private theorem fromKmsg_query (source : SocketAddr) (q : Query) :
    fromKmsg source (query q).toKmsg = .ok ((query q).received source) := by
  rcases q with ⟨method, base⟩
  cases method <;> rfl

private theorem fromKmsg_error (source : SocketAddr) (e : Error) :
    fromKmsg source (error e).toKmsg = .ok ((error e).received source) := rfl

/-- Wrapped peers are unwrapped in order. -/
private theorem filterMap_wrapped (peers : List SocketAddr) :
    (peers.map fun peer => SocketAddrWrapper.mk (some peer)).filterMap SocketAddrWrapper.socketAddr = peers := by
  rw [List.filterMap_map]
  exact List.filterMap_some

private theorem fromKmsg_response (source : SocketAddr) (r : Response)
    (encodable : (response r).Encodable) :
    fromKmsg source (response r).toKmsg = .ok ((response r).received source) := by
  rcases r with ⟨kind, base⟩
  cases kind with
  | ok => rfl
  | kNearest nodes token => rfl
  | peers peers token nodes =>
      cases nodes <;>
      · change Except.ok (Message.response ⟨.peers ((peers.map fun peer => SocketAddrWrapper.mk (some peer)).filterMap
          SocketAddrWrapper.socketAddr) token _, _⟩) = _
        rw [filterMap_wrapped]
        rfl
  | data data =>
      rcases data with ⟨v, seq, k, sig⟩
      cases v with
      | none => cases encodable.2
      | some v => rfl
  | samples nodes samples available interval => rfl

/-- The wire form determines the message. -/
theorem fromKmsg_toKmsg (source : SocketAddr) {self : Message} (encodable : self.Encodable) :
    fromKmsg source self.toKmsg = .ok (self.received source) := by
  cases self with
  | query q => exact fromKmsg_query source q
  | response r => exact fromKmsg_response source r encodable
  | error e => exact fromKmsg_error source e

/-! ## The wire form can be written -/

private theorem writable_toKmsg_query {q : Query} (encodable : (query q).Encodable) :
    (query q).toKmsg.Writable := by
  rcases q with ⟨method, base⟩
  have plain : SocketAddrWrapper.Plain ⟨some base.origin.addr⟩ := by
    intro addr equal
    cases equal
    exact encodable
  cases method <;>
  · refine ⟨fun response impossible => ?_, fun requestorIp equal => ?_⟩
    · cases impossible
    · cases equal
      exact plain

private theorem writable_toKmsg_response {r : Response} (encodable : (response r).Encodable) :
    (response r).toKmsg.Writable := by
  rcases r with ⟨kind, base⟩
  rcases encodable with ⟨requestor, kindEncodable⟩
  refine ⟨fun response equal => ?_, fun requestorIp equal => ?_⟩
  · cases kind with
    | ok =>
        cases equal
        exact ⟨by simp, by simp⟩
    | kNearest nodes token =>
        cases equal
        refine ⟨fun list present => ?_, by simp⟩
        cases present
        exact kindEncodable
    | peers peers token nodes =>
        cases equal
        refine ⟨fun list present => ?_, fun values present => ?_⟩
        · rcases Option.map_eq_some_iff.mp present with ⟨inner, nodesEq, rfl⟩
          exact kindEncodable.2 inner nodesEq
        · cases present
          intro value member addr equal
          rcases List.mem_map.mp member with ⟨peer, peerMember, rfl⟩
          cases equal
          exact kindEncodable.1 _ peerMember
    | data data =>
        cases equal
        exact ⟨by simp, by simp⟩
    | samples nodes samples available interval =>
        cases equal
        refine ⟨fun list present => ?_, by simp⟩
        cases present
        exact kindEncodable
  -- the requestor's address is written in the same way for every kind
  · cases kind <;>
      cases equal <;>
      exact requestor

theorem writable_toKmsg {self : Message} (encodable : self.Encodable) : self.toKmsg.Writable := by
  cases self with
  | query q => exact writable_toKmsg_query encodable
  | response r => exact writable_toKmsg_response encodable
  | error e =>
      refine ⟨fun response present => ?_, fun requestorIp equal => ?_⟩
      · cases present
      · cases equal
        intro addr present
        cases present

/-- Writing succeeds, and the receiver reads back the wire form. -/
theorem toBytes_encodable (bencode : Bencode.Codec) {self : Message} (encodable : self.Encodable) :
    Exists fun bytes => self.toBytes bencode = some bytes ∧
      (bencode.fromSlice bytes).bind (KMessage.deserialize (bencode.stray bytes)) = some self.toKmsg := by
  rcases KMessage.serialize_writable (writable_toKmsg encodable) with ⟨value, written, canonical, back⟩
  refine ⟨bencode.toVec value, ?_, ?_⟩
  · rw [toBytes, written]
    rfl
  · rw [bencode.faithful value canonical]
    exact back _

/-- What an encodable message becomes at its receiver. -/
theorem receive_encodable (bencode : Bencode.Codec) {self : Message} (encodable : self.Encodable)
    (source : SocketAddr) :
    Exists fun bytes => self.toBytes bencode = some bytes ∧
      receive bencode bytes source = .ok (self.received source) := by
  rcases toBytes_encodable bencode encodable with ⟨bytes, written, read⟩
  refine ⟨bytes, written, ?_⟩
  rw [receive, read]
  simp only [fromKmsg_toKmsg source encodable]

end Message

/-- Every encodable message arrives: with its method, kind or error, its
transaction id and its read-only flag unchanged, with the sender's id on queries
and responses, and with the requestor's address as the kind determines it. -/
theorem message_round_trip (bencode : Bencode.Codec) (message : Message) (encodable : message.Encodable)
    (source : SocketAddr) :
    Exists fun bytes => message.toBytes bencode = some bytes ∧
      Message.receive bencode bytes source = .ok (message.received source) :=
  Message.receive_encodable bencode encodable source

/-- A response with samples, sent in text form. -/
theorem message_round_trip_samples :
    let message : Message := .response
      ⟨.samples [⟨U160.min, .v4 0x7f000001 1337⟩] [U160.min] 1 0,
        { origin := .me ⟨U160.min, .v4 0x7f000001 1337⟩
          destination := .addr (.v4 0x7f000001 1338)
          requestorAddr := some (.v6 1 1338 0 0)
          transactionId := [1, 2] }⟩
    message.Encodable ∧
      Exists fun bytes => message.toBytes Bencode.textCodec = some bytes ∧
        Message.receive Bencode.textCodec bytes (.v4 0x7f000001 1337) =
          .ok (message.received (.v4 0x7f000001 1337)) := by
  intro message
  have encodable : message.Encodable := by
    refine ⟨fun addr equal => ?_, fun node member => ?_⟩
    · cases equal
      rfl
    · rw [List.mem_singleton] at member
      subst member
      trivial
  exact ⟨encodable, message_round_trip Bencode.textCodec message encodable _⟩

end DhtExplorer
