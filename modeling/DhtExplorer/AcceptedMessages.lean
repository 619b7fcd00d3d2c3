import DhtExplorer.QueryRound

namespace DhtExplorer

open BigEndian (Bytes)
open Bencode (Value Stray optionalField requiredField)

/-!
# What is accepted is well formed

The reader takes many spellings of a message: unknown fields, other lengths, other
orders.  Whatever it accepts can be written again, although the writer of contact
lists can panic, and what is written then is a fixed point: it is accepted as the same
message, and written in the same bytes again.
-/

/-- A field that is there has been read. -/
theorem optionalField_read {α : Type} {entries : List (Bytes × Value)} {key : Bytes} {read : Value -> Option α}
    {item : α} (found : optionalField entries key read = some (some item)) :
    Exists fun value => read value = some item := by
  unfold optionalField at found
  split at found
  · cases found
  · cases found
  · rename_i value _
    rcases Option.map_eq_some_iff.mp found with ⟨other, readValue, same⟩
    exact ⟨value, Option.some.inj same ▸ readValue⟩

namespace Kmsg

variable {stray : Value -> Option Bytes}

theorem CompactIPv4NodeInfo.ipv4_of_deserialize {value : Value} {list : CompactIPv4NodeInfo}
    (read : deserialize stray value = some list) : forall node, node ∈ list.dhtNodes -> node.IsIpv4 := by
  rcases Option.map_eq_some_iff.mp read with ⟨text, _, rfl⟩
  intro node member
  rcases List.mem_map.mp member with ⟨chunk, _, rfl⟩
  trivial

theorem SocketAddrWrapper.plain_of_deserialize {value : Value} {wrapper : SocketAddrWrapper}
    (read : deserialize stray value = some wrapper) : wrapper.Plain := by
  rcases Option.map_eq_some_iff.mp read with ⟨text, _, rfl⟩
  intro addr same
  rcases Option.map_eq_some_iff.mp same with ⟨ip, _, rfl⟩
  exact SocketAddr.plain_new _ _

theorem SocketAddrWrapper.plain_of_deserializeAll {value : Value} {wrappers : List SocketAddrWrapper}
    (read : deserializeAll stray value = some wrappers) : forall wrapper, wrapper ∈ wrappers -> wrapper.Plain := by
  cases value with
  | list items =>
      change items.mapM (deserialize stray) = some wrappers at read
      induction items generalizing wrappers with
      | nil =>
          cases read
          exact fun _ member => absurd member List.not_mem_nil
      | cons item rest ih =>
          simp only [List.mapM_cons, Option.bind_eq_bind, Option.bind_eq_some_iff] at read
          rcases read with ⟨first, firstRead, others, othersRead, same⟩
          cases same
          intro wrapper member
          rcases List.mem_cons.mp member with rfl | later
          · exact plain_of_deserialize firstRead
          · exact ih othersRead wrapper later
  | _ => cases read

theorem KResponse.writable_of_deserialize {stray : Stray} {value : Value} {response : KResponse}
    (read : deserialize stray value = some response) : response.Writable := by
  cases value with
  | dict entries =>
      change ofEntries stray entries = some response at read
      simp only [ofEntries, Option.bind_eq_bind, Option.bind_eq_some_iff] at read
      rcases read with
        ⟨id, _, nodes, nodesRead, token, _, values, valuesRead, _, _, _, _, _, _, _, _, _, _, _, _, _, _, same⟩
      cases same
      constructor
      · rintro list rfl
        rcases optionalField_read nodesRead with ⟨value, read⟩
        exact CompactIPv4NodeInfo.ipv4_of_deserialize read
      · rintro list rfl
        rcases optionalField_read valuesRead with ⟨value, read⟩
        exact SocketAddrWrapper.plain_of_deserializeAll read
  | _ => cases read

theorem KMessage.writable_of_deserialize {stray : Stray} {value : Value} {kmsg : KMessage}
    (read : deserialize stray value = some kmsg) : kmsg.Writable := by
  have entries : Exists fun entries => ofEntries stray entries = some kmsg := by
    cases value with
    | dict entries => exact ⟨entries, read⟩
    | list items =>
        unfold deserialize at read
        dsimp only at read
        split at read
        · exact ⟨_, read⟩
        · cases read
    | _ => cases read
  rcases entries with ⟨entries, read⟩
  simp only [ofEntries, Option.bind_eq_bind, Option.bind_eq_some_iff] at read
  rcases read with ⟨tid, _, y, _, q, _, a, _, response, responseRead, e, _, ip, ipRead, ro, _, v, _, same⟩
  cases same
  constructor
  · rintro reply rfl
    rcases optionalField_read responseRead with ⟨value, read⟩
    exact KResponse.writable_of_deserialize read
  · rintro wrapper rfl
    rcases optionalField_read ipRead with ⟨value, read⟩
    exact SocketAddrWrapper.plain_of_deserialize read

end Kmsg

namespace Message

open Kmsg

variable {bencode : Bencode.Codec} {bytes : Bytes} {source : SocketAddr} {self : Message}

theorem wireForm_of_receive (accepted : receive bencode bytes source = .ok self) :
    Exists fun kmsg => kmsg.Writable ∧ fromKmsg source kmsg = .ok self := by
  cases form : wireForm bencode bytes with
  | none =>
      rw [receive_of_no_wireForm form] at accepted
      cases accepted
  | some kmsg =>
      rw [receive_of_wireForm form] at accepted
      rcases Option.bind_eq_some_iff.mp form with ⟨value, _, read⟩
      refine ⟨kmsg, KMessage.writable_of_deserialize read, ?_⟩
      cases recovered : fromKmsg source kmsg with
      | ok message =>
          rw [recovered] at accepted
          cases accepted
          rfl
      | error cause =>
          rw [recovered] at accepted
          cases accepted

/-- The message without what is not written again: the version of the sender's program,
and the requestor's address where the kind of the message determines it. -/
def restated (self : Message) : Message :=
  match self with
  | query q => .query { q with base := { q.base with requestorAddr := some q.base.origin.addr.plain, client := none } }
  | response r => .response { r with base := { r.base with client := none } }
  | error e => .error { e with base := { e.base with requestorAddr := none, client := none } }

/-- Contacts are IPv4, and addresses plain.  A sender is known by its id and where it is. -/
structure Normal (source : SocketAddr) (message : Message) : Prop where
  ipv4 : forall node, node ∈ message.contacts -> node.IsIpv4
  restated : message.delivered source = message.restated

theorem plain_requestor {kmsg : KMessage} (writable : kmsg.Writable) :
    (kmsg.requestorIp.bind SocketAddrWrapper.socketAddr).map SocketAddr.plain =
      kmsg.requestorIp.bind SocketAddrWrapper.socketAddr := by
  cases requestor : kmsg.requestorIp with
  | none => rfl
  | some wrapper =>
      cases addr : wrapper.socketAddr with
      | none => rw [Option.bind_some, addr, Option.map_none]
      | some addr' =>
          rw [Option.bind_some, addr, Option.map_some]
          exact congrArg some (writable.plain wrapper requestor addr' addr).plain_eq

/-- The kind of a response that was read. -/
theorem kindOf_normal {reply : KResponse} (writable : reply.Writable) {kind : ResponseKind}
    (read : kindOf reply = .ok kind) :
    kind.received = kind ∧ forall base, forall node, node ∈ (response ⟨kind, base⟩).contacts -> node.IsIpv4 := by
  unfold kindOf at read
  split at read
  · rename_i values present
    rcases Kmsg.bind_eq_ok.mp read with ⟨token, _, same⟩
    cases same
    constructor
    · rw [ResponseKind.received, List.map_filterMap]
      refine congrArg (fun peers => ResponseKind.peers peers token _) (List.filterMap_congr fun wrapper member => ?_)
      cases addr : wrapper.socketAddr with
      | none => rfl
      | some addr' => exact congrArg some (writable.plain values present wrapper member addr' addr).plain_eq
    · intro base node member
      cases nodes : reply.nodes with
      | none =>
          rw [nodes] at member
          cases member
      | some list =>
          rw [nodes] at member
          exact writable.ipv4 list nodes node member
  · split at read
    · rename_i isData
      cases read
      exact ⟨if_pos isData, fun _ _ member => absurd member List.not_mem_nil⟩
    · split at read
      · rename_i samples present
        rcases Kmsg.bind_eq_ok.mp read with ⟨list, found, same⟩
        cases same
        refine ⟨rfl, fun base node member => ?_⟩
        cases nodes : reply.nodes with
        | none =>
            rw [nodes] at found
            cases found
        | some list' =>
            rw [nodes] at found
            cases found
            exact writable.ipv4 list nodes node member
      · split at read
        · rename_i list present
          cases read
          exact ⟨rfl, fun _ node member => writable.ipv4 list present node member⟩
        · cases read
          exact ⟨rfl, fun _ _ member => absurd member List.not_mem_nil⟩

theorem normal_of_accepted {kmsg : KMessage} (writable : kmsg.Writable) (accepted : fromKmsg source kmsg = .ok self) :
    self.Normal source := by
  unfold fromKmsg at accepted
  dsimp only at accepted
  split at accepted
  · rcases Kmsg.bind_eq_ok.mp accepted with ⟨cause, _, same⟩
    cases same
    exact ⟨fun _ member => absurd member List.not_mem_nil, rfl⟩
  · split at accepted
    · split at accepted
      · rcases Kmsg.bind_eq_ok.mp accepted with ⟨name, _, named⟩
        rcases Kmsg.bind_eq_ok.mp named with ⟨method, _, same⟩
        cases same
        exact ⟨fun _ member => absurd member List.not_mem_nil, rfl⟩
      · cases accepted
    · split at accepted
      · split at accepted
        · rename_i reply present
          rcases Kmsg.bind_eq_ok.mp accepted with ⟨kind, read, same⟩
          cases same
          rcases kindOf_normal (writable.response reply present) read with ⟨sameKind, ipv4⟩
          refine ⟨ipv4 _, ?_⟩
          unfold delivered restated
          dsimp only
          rw [sameKind, show (receivedBase source kmsg).requestorAddr.map SocketAddr.plain = _ from plain_requestor writable]
          rfl
        · cases accepted
      · cases accepted

/-- What is left out is not written. -/
theorem toKmsg_restated (self : Message) : self.restated.toKmsg = self.toKmsg := by
  cases self with
  | query q =>
      rcases q with ⟨method, base⟩
      cases method <;> rfl
  | response r =>
      rcases r with ⟨kind, base⟩
      cases kind <;> rfl
  | error e => rfl

end Message

/-- Every accepted message can be written again.  What is written is accepted as the
same message, and that message is written in the same bytes. -/
theorem accepted_message_stable (bencode : Bencode.Codec) (bytes : Bytes) (source : SocketAddr) (message : Message)
    (accepted : Message.receive bencode bytes source = .ok message) :
    Exists fun again => message.toBytes bencode = some again ∧
      Message.receive bencode again source = .ok message.restated ∧ message.restated.toBytes bencode = some again := by
  rcases Message.wireForm_of_receive accepted with ⟨kmsg, writable, recovered⟩
  have normal := Message.normal_of_accepted writable recovered
  rcases Option.isSome_iff_exists.mp ((Message.isSome_toBytes bencode message).mpr normal.ipv4) with ⟨again, written⟩
  refine ⟨again, written, ?_, ?_⟩
  · rw [<- normal.restated]
    exact Message.receive_written written source
  · rw [Message.toBytes, Message.toKmsg_restated]
    exact written

open Sample in
theorem accepted_message_stable_ping :
    Exists fun bytes => Exists fun message => Exists fun again =>
      Message.receive Bencode.textCodec bytes peerServer.me.addr = .ok message ∧
      Message.receive Bencode.textCodec again peerServer.me.addr = .ok message.restated := by
  have written : Exists fun bytes =>
      (Message.query (asker.buildQuery serverState (.addr peerServer.me.addr) .ping).1).toBytes Bencode.textCodec =
        some bytes :=
    Option.isSome_iff_exists.mp ((Message.isSome_toBytes _ _).mpr fun _ member => absurd member List.not_mem_nil)
  rcases written with ⟨bytes, written⟩
  have accepted := Message.receive_written written peerServer.me.addr
  rcases accepted_message_stable _ bytes _ _ accepted with ⟨again, _, read, _⟩
  exact ⟨bytes, _, again, accepted, read⟩

end DhtExplorer
