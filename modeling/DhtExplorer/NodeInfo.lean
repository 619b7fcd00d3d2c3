import DhtExplorer.U160
import DhtExplorer.Address

namespace DhtExplorer

open BigEndian (Bytes)

/-!
# Contact records

A contact is an id with the address it was last heard from.  Its compact form
is twenty id bytes, four address bytes and two port bytes.  The writer of that
form panics on an IPv6 contact; the panic is the absence of a result here.
-/

structure NodeInfo where
  id : U160
  addr : SocketAddr
deriving DecidableEq, Repr

def IPV4_DHT_NODE_BYTES_LEN : Nat := 26

namespace NodeInfo

/-- The contact has an IPv4 address, so the compact form can express it. -/
def IsIpv4 (node : NodeInfo) : Prop :=
  match node.addr with
  | .v4 _ _ => True
  | .v6 _ _ _ _ => False

/-- `none` is the `panic!()` on an IPv6 address. -/
def ip4ToBytes (node : NodeInfo) : Option Bytes :=
  match node.addr.ip with
  | .v4 ip => some (node.id.toBeBytes ++ (IpAddr.v4 ip).octets ++ u16ToBeBytes node.addr.port)
  | .v6 _ => none

def ip4FromBytes (bytes : Bytes) : NodeInfo where
  id := U160.fromBeBytes (bytes.take 20)
  addr := SocketAddr.new (IpAddr.v4OfOctets (bytes.drop 20)) (u16FromBeBytes (bytes.drop 24))

/-! ### The parts of a record -/

theorem take_record (id : U160) (octets : Bytes) (port : UInt16) :
    (id.toBeBytes ++ octets ++ u16ToBeBytes port).take 20 = id.toBeBytes := by
  rw [List.append_assoc, List.take_left' (U160.length_toBeBytes id)]

theorem drop_record (id : U160) (octets : Bytes) (port : UInt16) :
    (id.toBeBytes ++ octets ++ u16ToBeBytes port).drop 20 = octets ++ u16ToBeBytes port := by
  rw [List.append_assoc, List.drop_left' (U160.length_toBeBytes id)]

theorem length_record (id : U160) (octets : Bytes) (port : UInt16) :
    (id.toBeBytes ++ octets ++ u16ToBeBytes port).length = 22 + octets.length := by
  rw [List.length_append, List.length_append, U160.length_toBeBytes, length_u16ToBeBytes]
  omega

theorem drop_record_port {skipped : Nat} (id : U160) (octets : Bytes) (port : UInt16)
    (front : skipped = 20 + octets.length) :
    (id.toBeBytes ++ octets ++ u16ToBeBytes port).drop skipped = u16ToBeBytes port := by
  apply List.drop_left'
  rw [List.length_append, U160.length_toBeBytes, front]

/-! ### The compact form -/

theorem ip4ToBytes_eq_some {node : NodeInfo} {bytes : Bytes} (written : node.ip4ToBytes = some bytes) :
    bytes.length = IPV4_DHT_NODE_BYTES_LEN ∧ ip4FromBytes bytes = node := by
  rcases node with ⟨id, addr⟩
  cases addr with
  | v6 ip port flowinfo scopeId => cases written
  | v4 ip port =>
      have octetsLength : (IpAddr.v4 ip).octets.length = 4 := BigEndian.length_encode _ _
      simp only [ip4ToBytes, SocketAddr.ip, SocketAddr.port, Option.some.injEq] at written
      subst written
      constructor
      · rw [length_record, octetsLength]
        rfl
      · rw [ip4FromBytes, take_record, drop_record, drop_record_port _ _ _ (by rw [octetsLength]),
          U160.fromBeBytes_toBeBytes, IpAddr.v4OfOctets_octets, u16FromBeBytes_toBeBytes]
        rfl

theorem ip4ToBytes_isSome {node : NodeInfo} : node.ip4ToBytes.isSome = true <-> node.IsIpv4 := by
  rcases node with ⟨id, addr⟩
  cases addr <;> simp [ip4ToBytes, IsIpv4, SocketAddr.ip]

instance (node : NodeInfo) : Decidable node.IsIpv4 := decidable_of_iff _ ip4ToBytes_isSome

end NodeInfo
end DhtExplorer
