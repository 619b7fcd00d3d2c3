import DhtExplorer.Kmsg.KMessage

namespace DhtExplorer

/-!
# Whatever can be written can be read

The encoding of an address keeps its IP and its port.  Up to this loss every
wire form that the writer accepts is read back, whatever it contains: the writer
accepts contact lists of IPv4 addresses only, and everything else in a message
has an encoding.
-/

namespace Kmsg

open BigEndian (Bytes)
open Bencode (Value)

def SocketAddrWrapper.plain (self : SocketAddrWrapper) : SocketAddrWrapper := ⟨self.socketAddr.map SocketAddr.plain⟩

def KResponse.plain (self : KResponse) : KResponse :=
  { self with values := self.values.map fun values => values.map SocketAddrWrapper.plain }

def KMessage.plain (self : KMessage) : KMessage :=
  { self with
    response := self.response.map KResponse.plain
    requestorIp := self.requestorIp.map SocketAddrWrapper.plain }

/-! ## The writer does not see the difference -/

theorem SocketAddrWrapper.serialize_plain (self : SocketAddrWrapper) : self.plain.serialize = self.serialize := by
  rcases self with ⟨socketAddr⟩
  cases socketAddr with
  | none => rfl
  | some addr =>
      change Value.bytes ((SocketAddr.new addr.ip addr.port).ip.octets ++
        u16ToBeBytes (SocketAddr.new addr.ip addr.port).port) = _
      rw [SocketAddr.ip_new, SocketAddr.port_new]
      rfl

theorem SocketAddrWrapper.plain_plain (self : SocketAddrWrapper) : self.plain.Plain := by
  intro addr present
  rcases Option.map_eq_some_iff.mp present with ⟨original, _, rfl⟩
  exact SocketAddr.plain_new _ _

theorem SocketAddrWrapper.serializeAll_plain (values : List SocketAddrWrapper) :
    serializeAll (values.map plain) = serializeAll values := by
  rw [serializeAll, serializeAll, List.map_map]
  exact congrArg Value.list (List.map_congr_left fun value _ => value.serialize_plain)

theorem KResponse.fields_plain (self : KResponse) (nodes : Option Value) : self.plain.fields nodes = self.fields nodes := by
  have values : self.plain.values.map SocketAddrWrapper.serializeAll =
      self.values.map SocketAddrWrapper.serializeAll := by
    change (self.values.map _).map _ = _
    rw [Option.map_map]
    exact congrArg (Option.map · self.values) (funext SocketAddrWrapper.serializeAll_plain)
  rw [fields, values]
  rfl

theorem KResponse.serialize_plain (self : KResponse) : self.plain.serialize = self.serialize := by
  unfold serialize
  simp only [KResponse.fields_plain]
  rfl

theorem KMessage.fields_plain (self : KMessage) (response : Option Value) :
    self.plain.fields response = self.fields response := by
  have requestorIp : self.plain.requestorIp.map SocketAddrWrapper.serialize =
      self.requestorIp.map SocketAddrWrapper.serialize := by
    change (self.requestorIp.map _).map _ = _
    rw [Option.map_map]
    exact congrArg (Option.map · self.requestorIp) (funext SocketAddrWrapper.serialize_plain)
  rw [fields, requestorIp]
  rfl

theorem KMessage.serialize_plain (self : KMessage) : self.plain.serialize = self.serialize := by
  unfold serialize
  simp only [KMessage.fields_plain]
  cases response : self.response with
  | none =>
      simp only [plain, response, Option.map_none]
  | some reply =>
      simp only [plain, response, Option.map_some, KResponse.serialize_plain]

/-! ## What the writer accepts -/

/-- The compact form exists only for lists of IPv4 contacts. -/
theorem CompactIPv4NodeInfo.ipv4_of_serialize {self : CompactIPv4NodeInfo} {value : Value}
    (written : self.serialize = some value) : forall node, node ∈ self.dhtNodes -> node.IsIpv4 := by
  rcases Option.map_eq_some_iff.mp written with ⟨chunks, mapped, _⟩
  have each : forall {nodes : List NodeInfo} {chunks : List Bytes}, nodes.mapM NodeInfo.ip4ToBytes = some chunks ->
      forall node, node ∈ nodes -> node.IsIpv4 := by
    intro nodes
    induction nodes with
    | nil => exact fun _ _ member => absurd member List.not_mem_nil
    | cons first rest ih =>
        intro chunks mapped node member
        rw [List.mapM_cons] at mapped
        rcases Option.bind_eq_some_iff.mp mapped with ⟨chunk, firstWritten, later⟩
        rcases Option.bind_eq_some_iff.mp later with ⟨tail, restWritten, _⟩
        rcases List.mem_cons.mp member with rfl | among
        · exact NodeInfo.ip4ToBytes_isSome.mp (Option.isSome_iff_exists.mpr ⟨chunk, firstWritten⟩)
        · exact ih restWritten node among
  exact each mapped

theorem KResponse.writable_plain {self : KResponse} {value : Value} (written : self.serialize = some value) :
    self.plain.Writable where
  ipv4 := by
    intro nodes present
    change self.nodes = some nodes at present
    rw [serialize, present] at written
    rcases Option.map_eq_some_iff.mp written with ⟨content, nodesWritten, _⟩
    exact CompactIPv4NodeInfo.ipv4_of_serialize nodesWritten
  plain := by
    intro values present sock member
    rcases Option.map_eq_some_iff.mp present with ⟨original, _, rfl⟩
    rcases List.mem_map.mp member with ⟨inner, _, rfl⟩
    exact inner.plain_plain

theorem KMessage.writable_plain {self : KMessage} {value : Value} (written : self.serialize = some value) :
    self.plain.Writable where
  response := by
    intro response present
    rcases Option.map_eq_some_iff.mp present with ⟨original, originalPresent, rfl⟩
    rw [serialize, originalPresent] at written
    rcases Option.map_eq_some_iff.mp written with ⟨content, responseWritten, _⟩
    exact KResponse.writable_plain responseWritten
  plain := by
    intro requestorIp present
    rcases Option.map_eq_some_iff.mp present with ⟨original, _, rfl⟩
    exact original.plain_plain

/-- Reading inverts writing, up to what an address loses. -/
theorem KMessage.deserialize_written {self : KMessage} {value : Value} (written : self.serialize = some value) :
    value.Canonical ∧ forall stray, deserialize stray value = some self.plain := by
  rcases KMessage.serialize_writable (KMessage.writable_plain written) with ⟨same, writtenPlain, canonical, back⟩
  rw [self.serialize_plain, written, Option.some.injEq] at writtenPlain
  subst writtenPlain
  exact ⟨canonical, back⟩

end Kmsg
end DhtExplorer
