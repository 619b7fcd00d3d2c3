import DhtExplorer.Library.Bencode
import DhtExplorer.Library.VecOps
import DhtExplorer.NodeInfo

namespace DhtExplorer
namespace Kmsg

open BigEndian (Bytes)
open Bencode (Value)

/-!
# The hand-written encodings inside a message

Ids, contact lists, hash lists and socket addresses are byte strings.  Reading
is more liberal than writing: a short id is padded, an incomplete chunk at the
end of a list is dropped, and an address of another length than 6 or 18 bytes is
read as absent.  Where a byte string is expected and another value stands, it is up
to the library what the reader sees: its text, or nothing.  A reader returns nothing
where deserialization fails.
-/

/-- The bytes of a string; keys of records are written this way too. -/
def utf8 (text : String) : Bytes := text.toByteArray.data.toList

/-- A fallible step and what follows it succeed together. -/
theorem bind_eq_ok {ε α β : Type} {first : Except ε α} {later : α -> Except ε β} {result : β} :
    first.bind later = .ok result <-> Exists fun middle => first = .ok middle ∧ later middle = .ok result := by
  cases first with
  | error reason =>
      constructor
      · intro impossible
        cases impossible
      · rintro ⟨_, impossible, _⟩
        cases impossible
  | ok middle =>
      constructor
      · intro returned
        exact ⟨middle, rfl, returned⟩
      · rintro ⟨_, same, returned⟩
        cases same
        exact returned

/-! ## Primitive values -/

def asBytes (stray : Value -> Option Bytes) : Value -> Option Bytes
  | .bytes text => some text
  | other => stray other

def asInt : Value -> Option Int
  | .int number => some number
  | _ => none

/-- An integer of an unsigned type with the given number of bits. -/
def asUnsigned (bits : Nat) (value : Value) : Option Nat :=
  (asInt value).bind fun number =>
    if 0 ≤ number ∧ number < 2 ^ bits then some number.toNat else none

def asU8 (value : Value) : Option UInt8 := (asUnsigned 8 value).map UInt8.ofNat

def asU16 (value : Value) : Option UInt16 := (asUnsigned 16 value).map UInt16.ofNat

def asU64 (value : Value) : Option UInt64 := (asUnsigned 64 value).map UInt64.ofNat

def asI64 (value : Value) : Option Int64 :=
  (asInt value).bind fun number =>
    if -2 ^ 63 ≤ number ∧ number < 2 ^ 63 then some (Int64.ofInt number) else none

def asString (stray : Value -> Option Bytes) (value : Value) : Option String :=
  (asBytes stray value).bind fun text => String.fromUTF8? ⟨text.toArray⟩

def intFromBool (value : Bool) : Value := .int (if value then 1 else 0)

/-- Integers other than zero and one are refused. -/
def boolFromInt (value : Value) : Option Bool :=
  (asU8 value).bind fun number =>
    if number = 0 then some false else if number = 1 then some true else none

def u16 (number : UInt16) : Value := .int number.toNat

def u64 (number : UInt64) : Value := .int number.toNat

def i64 (number : Int64) : Value := .int number.toInt

def string (text : String) : Value := .bytes (utf8 text)

theorem asUnsigned_natCast {bits number : Nat} (fits : number < 2 ^ bits) :
    asUnsigned bits (.int number) = some number := by
  have lower : (0 : Int) ≤ number := Int.natCast_nonneg number
  have upper : (number : Int) < 2 ^ bits := by exact_mod_cast fits
  rw [asUnsigned, asInt, Option.bind_some, if_pos ⟨lower, upper⟩, Int.toNat_natCast]

theorem asU16_u16 (number : UInt16) : asU16 (u16 number) = some number := by
  rw [asU16, u16, asUnsigned_natCast number.toNat_lt, Option.map_some, UInt16.ofNat_toNat]

theorem asU64_u64 (number : UInt64) : asU64 (u64 number) = some number := by
  rw [asU64, u64, asUnsigned_natCast number.toNat_lt, Option.map_some, UInt64.ofNat_toNat]

theorem asI64_i64 (number : Int64) : asI64 (i64 number) = some number := by
  rw [asI64, i64, asInt, Option.bind_some, if_pos ⟨number.le_toInt, number.toInt_lt⟩,
    Int64.ofInt_toInt]

theorem asBytes_bytes (stray : Value -> Option Bytes) (text : Bytes) : asBytes stray (.bytes text) = some text := rfl

theorem asString_string (stray : Value -> Option Bytes) (text : String) : asString stray (string text) = some text := by
  have back : (⟨(utf8 text).toArray⟩ : ByteArray) = text.toByteArray := by
    rw [utf8, Array.toArray_toList]
  rw [asString, string, asBytes, Option.bind_some, back, String.fromUTF8?, dif_pos text.isValidUTF8]
  rfl

theorem boolFromInt_intFromBool (value : Bool) : boolFromInt (intFromBool value) = some value := by
  cases value <;> rfl

theorem canonical_u16 (number : UInt16) : (u16 number).Canonical := by
  have bound : number.toNat < 2 ^ 16 := number.toNat_lt
  exact .int (by omega) (by omega)

theorem canonical_u64 (number : UInt64) : (u64 number).Canonical := by
  have bound : number.toNat < 2 ^ 64 := number.toNat_lt
  exact .int (by omega) (by omega)

theorem canonical_i64 (number : Int64) : (i64 number).Canonical := by
  have lower := number.le_toInt
  have upper := number.toInt_lt
  exact .int lower (by omega)

theorem canonical_string (text : String) : (string text).Canonical := .bytes _

theorem canonical_intFromBool (value : Bool) : (intFromBool value).Canonical := by
  cases value <;> exact .int (by decide) (by decide)

/-! ## Ids -/

def serializeU160 (id : U160) : Value := .bytes id.toBeBytes

/-- Fewer than twenty bytes are padded in front, more are refused. -/
def deserializeU160 (stray : Value -> Option Bytes) (value : Value) : Option U160 :=
  (asBytes stray value).bind fun text =>
    if 20 < text.length then none
    else some (U160.fromBeBytes (List.replicate (20 - text.length) 0 ++ text))

theorem deserializeU160_serializeU160 (stray : Value -> Option Bytes) (id : U160) :
    deserializeU160 stray (serializeU160 id) = some id := by
  rw [deserializeU160, serializeU160, asBytes, Option.bind_some, U160.length_toBeBytes,
    if_neg (Nat.lt_irrefl 20), Nat.sub_self, List.replicate_zero, List.nil_append,
    U160.fromBeBytes_toBeBytes]

theorem canonical_serializeU160 (id : U160) : (serializeU160 id).Canonical := .bytes _

/-! ## Contact lists -/

structure CompactIPv4NodeInfo where
  dhtNodes : List NodeInfo
deriving DecidableEq, Repr

namespace CompactIPv4NodeInfo

/-- The concatenated records.  There is no result where the writer panics. -/
def serialize (self : CompactIPv4NodeInfo) : Option Value :=
  (self.dhtNodes.mapM NodeInfo.ip4ToBytes).map fun chunks => .bytes chunks.flatten

def deserialize (stray : Value -> Option Bytes) (value : Value) : Option CompactIPv4NodeInfo :=
  (asBytes stray value).map fun text =>
    { dhtNodes := (VecOps.chunksExact IPV4_DHT_NODE_BYTES_LEN text).map NodeInfo.ip4FromBytes }

/-- The compact form exists exactly for lists of IPv4 contacts. -/
theorem mapM_ip4ToBytes {nodes : List NodeInfo} (ipv4 : forall node, node ∈ nodes -> node.IsIpv4) :
    Exists fun chunks => nodes.mapM NodeInfo.ip4ToBytes = some chunks ∧
      (forall chunk, chunk ∈ chunks -> chunk.length = IPV4_DHT_NODE_BYTES_LEN) ∧
      chunks.map NodeInfo.ip4FromBytes = nodes := by
  induction nodes with
  | nil => exact ⟨[], rfl, fun _ member => absurd member List.not_mem_nil, rfl⟩
  | cons node rest ih =>
      rcases ih fun other member => ipv4 other (List.mem_cons_of_mem _ member) with
        ⟨chunks, written, sized, back⟩
      rcases Option.isSome_iff_exists.mp
        (NodeInfo.ip4ToBytes_isSome.mpr (ipv4 node List.mem_cons_self)) with ⟨chunk, chunkWritten⟩
      have chunkFacts := NodeInfo.ip4ToBytes_eq_some chunkWritten
      refine ⟨chunk :: chunks, ?_, ?_, ?_⟩
      · rw [List.mapM_cons, chunkWritten, written]
        rfl
      · intro other member
        rcases List.mem_cons.mp member with here | later
        · exact here ▸ chunkFacts.1
        · exact sized other later
      · rw [List.map_cons, chunkFacts.2, back]

theorem serialize_ipv4 {self : CompactIPv4NodeInfo}
    (ipv4 : forall node, node ∈ self.dhtNodes -> node.IsIpv4) :
    Exists fun value => self.serialize = some value ∧ value.Canonical ∧
      forall stray, deserialize stray value = some self := by
  rcases mapM_ip4ToBytes ipv4 with ⟨chunks, written, sized, back⟩
  refine ⟨.bytes chunks.flatten, ?_, .bytes _, ?_⟩
  · rw [serialize, written]
    rfl
  · intro stray
    rw [deserialize, asBytes, Option.map_some, VecOps.chunksExact_flatten (by decide) sized, back]

end CompactIPv4NodeInfo

/-! ## Hash lists -/

structure CompactInfoHashes where
  infoHashes : List U160
deriving DecidableEq, Repr

namespace CompactInfoHashes

def serialize (self : CompactInfoHashes) : Value := .bytes (self.infoHashes.map U160.toBeBytes).flatten

def deserialize (stray : Value -> Option Bytes) (value : Value) : Option CompactInfoHashes :=
  (asBytes stray value).map fun text => { infoHashes := (VecOps.chunksExact 20 text).map U160.fromBeBytes }

theorem deserialize_serialize (stray : Value -> Option Bytes) (self : CompactInfoHashes) :
    deserialize stray self.serialize = some self := by
  have sized : forall chunk, chunk ∈ self.infoHashes.map U160.toBeBytes -> chunk.length = 20 := by
    intro chunk member
    rcases List.mem_map.mp member with ⟨id, _, rfl⟩
    exact U160.length_toBeBytes id
  have back : (self.infoHashes.map U160.toBeBytes).map U160.fromBeBytes = self.infoHashes := by
    rw [List.map_map]
    exact List.map_id'' (fun id => U160.fromBeBytes_toBeBytes id) _
  rw [deserialize, serialize, asBytes, Option.map_some, VecOps.chunksExact_flatten (by decide) sized, back]

end CompactInfoHashes

/-! ## Socket addresses -/

structure SocketAddrWrapper where
  socketAddr : Option SocketAddr
deriving DecidableEq, Repr

namespace SocketAddrWrapper

def serialize (self : SocketAddrWrapper) : Value :=
  match self.socketAddr with
  | some addr => .bytes (addr.ip.octets ++ u16ToBeBytes addr.port)
  | none => .bytes []

def deserialize (stray : Value -> Option Bytes) (value : Value) : Option SocketAddrWrapper :=
  (asBytes stray value).map fun text =>
    let ip :=
      match text.length with
      | 6 => some (IpAddr.v4OfOctets text)
      | 18 => some (IpAddr.v6OfOctets text)
      | _ => none
    { socketAddr := ip.map fun ip => SocketAddr.new ip (u16FromBeBytes (text.drop (text.length - 2))) }

/-- The encoding does not carry more than an IP and a port. -/
def Plain (self : SocketAddrWrapper) : Prop :=
  forall addr, self.socketAddr = some addr -> addr.Plain

theorem deserialize_serialize (stray : Value -> Option Bytes) {self : SocketAddrWrapper} (plain : self.Plain) :
    deserialize stray self.serialize = some self := by
  rcases self with ⟨socketAddr⟩
  cases socketAddr with
  | none => rfl
  | some addr =>
      have addrPlain := plain addr rfl
      have portBack : forall octets : Bytes,
          u16FromBeBytes ((octets ++ u16ToBeBytes addr.port).drop
            ((octets ++ u16ToBeBytes addr.port).length - 2)) = addr.port := by
        intro octets
        rw [List.length_append, length_u16ToBeBytes, Nat.add_sub_cancel, List.drop_left,
          u16FromBeBytes_toBeBytes]
      change some (SocketAddrWrapper.mk (Option.map _ _)) = _
      rw [portBack]
      cases ipEq : addr.ip with
      | v4 ip =>
          have lengthEq : ((IpAddr.v4 ip).octets ++ u16ToBeBytes addr.port).length = 6 := by
            rw [List.length_append, length_u16ToBeBytes]
            exact congrArg (· + 2) (BigEndian.length_encode _ _)
          rw [lengthEq, IpAddr.v4OfOctets_octets, ← ipEq]
          exact congrArg (fun addr => some (SocketAddrWrapper.mk (some addr))) addrPlain.symm
      | v6 ip =>
          have lengthEq : ((IpAddr.v6 ip).octets ++ u16ToBeBytes addr.port).length = 18 := by
            rw [List.length_append, length_u16ToBeBytes]
            exact congrArg (· + 2) (BigEndian.length_encode _ _)
          rw [lengthEq, IpAddr.v6OfOctets_octets, ← ipEq]
          exact congrArg (fun addr => some (SocketAddrWrapper.mk (some addr))) addrPlain.symm

theorem canonical_serialize (self : SocketAddrWrapper) : self.serialize.Canonical := by
  rcases self with ⟨socketAddr⟩
  cases socketAddr <;> exact .bytes _

def serializeAll (values : List SocketAddrWrapper) : Value := .list (values.map serialize)

def deserializeAll (stray : Value -> Option Bytes) : Value -> Option (List SocketAddrWrapper)
  | .list items => items.mapM (deserialize stray)
  | _ => none

theorem deserializeAll_serializeAll (stray : Value -> Option Bytes) {values : List SocketAddrWrapper}
    (plain : forall value, value ∈ values -> value.Plain) :
    deserializeAll stray (serializeAll values) = some values := by
  rw [serializeAll, deserializeAll]
  induction values with
  | nil => rfl
  | cons value rest ih =>
      rw [List.map_cons, List.mapM_cons, deserialize_serialize stray (plain value List.mem_cons_self),
        ih fun other member => plain other (List.mem_cons_of_mem _ member)]
      rfl

theorem canonical_serializeAll (values : List SocketAddrWrapper) : (serializeAll values).Canonical := by
  refine .list ?_
  intro item member
  rcases List.mem_map.mp member with ⟨value, _, rfl⟩
  exact value.canonical_serialize

end SocketAddrWrapper

end Kmsg
end DhtExplorer
