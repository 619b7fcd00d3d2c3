import Mathlib.Data.BitVec
import DhtExplorer.Library.BigEndian

namespace DhtExplorer

open BigEndian (Bytes)

/-!
# Network addresses

An address is kept as the word its octets spell in network order.  An IPv6
socket address also carries flow information and a scope id: no encoder of the
program writes them, and the constructor from an IP and a port sets them to zero.
-/

inductive IpAddr where
  | v4 (ip : BitVec 32)
  | v6 (ip : BitVec 128)
deriving DecidableEq, Repr

namespace IpAddr

def octets : IpAddr -> Bytes
  | v4 ip => BigEndian.encode 4 ip.toNat
  | v6 ip => BigEndian.encode 16 ip.toNat

/-- `Ipv4Addr::new` on the first four bytes. -/
def v4OfOctets (bytes : Bytes) : IpAddr := v4 (BitVec.ofNat 32 (BigEndian.decode (bytes.take 4)))

/-- `Ipv6Addr::from` on the first sixteen bytes. -/
def v6OfOctets (bytes : Bytes) : IpAddr := v6 (BitVec.ofNat 128 (BigEndian.decode (bytes.take 16)))

end IpAddr

inductive SocketAddr where
  | v4 (ip : BitVec 32) (port : UInt16)
  | v6 (ip : BitVec 128) (port : UInt16) (flowinfo scopeId : UInt32)
deriving DecidableEq, Repr

namespace SocketAddr

def new : IpAddr -> UInt16 -> SocketAddr
  | .v4 ip, port => v4 ip port
  | .v6 ip, port => v6 ip port 0 0

def ip : SocketAddr -> IpAddr
  | v4 ip _ => .v4 ip
  | v6 ip _ _ _ => .v6 ip

def port : SocketAddr -> UInt16
  | v4 _ port => port
  | v6 _ port _ _ => port

/-- The address is determined by its IP and port: flow information and scope
id, where there are any, are zero. -/
def Plain (addr : SocketAddr) : Prop := addr = new addr.ip addr.port

instance (addr : SocketAddr) : Decidable addr.Plain :=
  inferInstanceAs (Decidable (addr = new addr.ip addr.port))

@[simp] theorem ip_new (ip : IpAddr) (port : UInt16) : (new ip port).ip = ip := by
  cases ip <;> rfl

@[simp] theorem port_new (ip : IpAddr) (port : UInt16) : (new ip port).port = port := by
  cases ip <;> rfl

theorem plain_new (ip : IpAddr) (port : UInt16) : (new ip port).Plain := by
  cases ip <;> rfl

/-- The address without flow information and scope id. -/
def plain (self : SocketAddr) : SocketAddr := new self.ip self.port

theorem Plain.plain_eq {addr : SocketAddr} (plain : addr.Plain) : addr.plain = addr := plain.symm

end SocketAddr

/-- `u16::to_be_bytes`. -/
def u16ToBeBytes (word : UInt16) : Bytes := BigEndian.encode 2 word.toNat

/-- `u16::from_be_bytes` on the first two bytes. -/
def u16FromBeBytes (bytes : Bytes) : UInt16 := UInt16.ofNat (BigEndian.decode (bytes.take 2))

namespace IpAddr

theorem v4OfOctets_octets (ip : BitVec 32) (rest : Bytes) :
    v4OfOctets ((v4 ip).octets ++ rest) = v4 ip := by
  rw [v4OfOctets, octets, List.take_left' (BigEndian.length_encode _ _),
    BigEndian.decode_encode_of_lt ip.isLt, BitVec.ofNat_toNat, BitVec.setWidth_eq]

theorem v6OfOctets_octets (ip : BitVec 128) (rest : Bytes) :
    v6OfOctets ((v6 ip).octets ++ rest) = v6 ip := by
  rw [v6OfOctets, octets, List.take_left' (BigEndian.length_encode _ _),
    BigEndian.decode_encode_of_lt ip.isLt, BitVec.ofNat_toNat, BitVec.setWidth_eq]

end IpAddr

@[simp] theorem length_u16ToBeBytes (word : UInt16) : (u16ToBeBytes word).length = 2 :=
  BigEndian.length_encode _ _

theorem u16FromBeBytes_toBeBytes (word : UInt16) : u16FromBeBytes (u16ToBeBytes word) = word := by
  rw [u16FromBeBytes, List.take_of_length_le (Nat.le_of_eq (length_u16ToBeBytes word)),
    u16ToBeBytes, BigEndian.decode_encode_of_lt word.toNat_lt, UInt16.ofNat_toNat]

theorem u16ToBeBytes_injective : Function.Injective u16ToBeBytes :=
  Function.LeftInverse.injective u16FromBeBytes_toBeBytes

end DhtExplorer
