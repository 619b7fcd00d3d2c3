import DhtExplorer.ByteForm
import DhtExplorer.TableFile

namespace DhtExplorer

open BigEndian (Bytes)
open Bencode (Value)
open VecOps (LongestWhole)

/-!
# Compact lists

A list of contacts or hashes is written as one byte string, and a byte string is cut
into records of that size.  What is written is read back.  What is read from any
byte string is written back up to an incomplete record at the end.

A single contact has its own writer and reader.  They agree with those of the lists
where the lists have any: on IPv4 contacts.
-/

/-! ## Fields of a record -/

theorem u16ToBeBytes_fromBeBytes {bytes : Bytes} (length : bytes.length = 2) :
    u16ToBeBytes (u16FromBeBytes bytes) = bytes := by
  have bound : BigEndian.decode bytes < 2 ^ 16 := BigEndian.decode_lt_two_pow length
  apply BigEndian.eq_of_decode_eq
  · rw [length_u16ToBeBytes, length]
  · rw [u16FromBeBytes, List.take_of_length_le (Nat.le_of_eq length), u16ToBeBytes, UInt16.toNat_ofNat',
      Nat.mod_eq_of_lt bound, BigEndian.decode_encode_of_lt bound]

theorem octets_v4OfOctets {bytes : Bytes} (length : 4 ≤ bytes.length) :
    (IpAddr.v4OfOctets bytes).octets = bytes.take 4 := by
  have taken : (bytes.take 4).length = 4 := by rw [List.length_take, Nat.min_eq_left length]
  have bound : BigEndian.decode (bytes.take 4) < 2 ^ 32 := BigEndian.decode_lt_two_pow taken
  apply BigEndian.eq_of_decode_eq
  · rw [taken]
    exact BigEndian.length_encode _ _
  · rw [IpAddr.v4OfOctets, IpAddr.octets, BitVec.toNat_ofNat, Nat.mod_eq_of_lt bound,
      BigEndian.decode_encode_of_lt bound]

namespace NodeInfo

/-- Every record of twenty-six bytes is that of the contact it is read as. -/
theorem ip4ToBytes_ip4FromBytes {bytes : Bytes} (length : bytes.length = IPV4_DHT_NODE_BYTES_LEN) :
    (ip4FromBytes bytes).ip4ToBytes = some bytes := by
  have twentySix : bytes.length = 26 := length
  have idLength : (bytes.take 20).length = 20 := by rw [List.length_take, twentySix]; rfl
  have addressLength : 4 ≤ (bytes.drop 20).length := by rw [List.length_drop, twentySix]; decide
  have portLength : (bytes.drop 24).length = 2 := by rw [List.length_drop, twentySix]
  have split : bytes.take 20 ++ (bytes.drop 20).take 4 ++ bytes.drop 24 = bytes := by
    have later : bytes.drop 24 = (bytes.drop 20).drop 4 := by rw [List.drop_drop]
    rw [later, List.append_assoc, List.take_append_drop, List.take_append_drop]
  have written : (ip4FromBytes bytes).ip4ToBytes = some ((U160.fromBeBytes (bytes.take 20)).toBeBytes ++
      (IpAddr.v4OfOctets (bytes.drop 20)).octets ++ u16ToBeBytes (u16FromBeBytes (bytes.drop 24))) := rfl
  rw [written, U160.toBeBytes_fromBeBytes idLength, octets_v4OfOctets addressLength,
    u16ToBeBytes_fromBeBytes portLength, split]

theorem mapM_ip4FromBytes {chunks : List Bytes}
    (sized : forall chunk, chunk ∈ chunks -> chunk.length = IPV4_DHT_NODE_BYTES_LEN) :
    (chunks.map ip4FromBytes).mapM ip4ToBytes = some chunks := by
  induction chunks with
  | nil => rfl
  | cons chunk rest ih =>
      rw [List.map_cons, List.mapM_cons, ip4ToBytes_ip4FromBytes (sized chunk List.mem_cons_self),
        ih fun other member => sized other (List.mem_cons_of_mem _ member)]
      rfl

/-- The two writers of a contact agree where both write. -/
theorem ip4ToBytes_eq_serialize {node : NodeInfo} (ipv4 : node.IsIpv4) :
    node.ip4ToBytes.map Value.bytes = some node.serialize := by
  rcases node with ⟨id, addr⟩
  cases addr with
  | v6 ip port flowinfo scopeId => cases ipv4
  | v4 ip port => rfl

theorem deserialize_eq_ip4FromBytes (stray : Value -> Option Bytes) {bytes : Bytes}
    (length : bytes.length = IPV4_DHT_NODE_BYTES_LEN) : deserialize stray (.bytes bytes) = some (ip4FromBytes bytes) := by
  rw [deserialize, Kmsg.asBytes, Option.bind_some, length]
  rfl

end NodeInfo

/-! ## Lists -/

namespace Kmsg

/-- What is read from a list of contacts is written back as the whole records. -/
theorem CompactIPv4NodeInfo.serialize_deserialize (stray : Value -> Option Bytes) (text : Bytes) :
    Exists fun nodes => Exists fun kept => deserialize stray (.bytes text) = some nodes ∧
      nodes.serialize = some (.bytes kept) ∧ LongestWhole IPV4_DHT_NODE_BYTES_LEN text kept := by
  refine ⟨_, (VecOps.chunksExact IPV4_DHT_NODE_BYTES_LEN text).flatten, rfl, ?_, ?_⟩
  · rw [serialize, NodeInfo.mapM_ip4FromBytes fun _ member => VecOps.length_of_mem_chunksExact member]
    rfl
  · exact VecOps.longestWhole_flatten_chunksExact (by decide) text

theorem CompactInfoHashes.serialize_deserialize (stray : Value -> Option Bytes) (text : Bytes) :
    Exists fun hashes => Exists fun kept => deserialize stray (.bytes text) = some hashes ∧
      hashes.serialize = .bytes kept ∧ LongestWhole 20 text kept := by
  have back : ((VecOps.chunksExact 20 text).map U160.fromBeBytes).map U160.toBeBytes = VecOps.chunksExact 20 text := by
    have same : forall chunk, chunk ∈ VecOps.chunksExact 20 text ->
        (U160.toBeBytes ∘ U160.fromBeBytes) chunk = chunk := by
      intro chunk member
      exact U160.toBeBytes_fromBeBytes (VecOps.length_of_mem_chunksExact member)
    rw [List.map_map, List.map_congr_left same, List.map_id']
  refine ⟨_, (VecOps.chunksExact 20 text).flatten, rfl, ?_, ?_⟩
  · rw [serialize, back]
  · exact VecOps.longestWhole_flatten_chunksExact (by decide) text

end Kmsg

/-- Lists are read back as they were written and written back as far as they were
read, and the two codecs of a contact are one on IPv4. -/
theorem compact_lists (stray : Value -> Option Bytes) :
    (forall nodes : List NodeInfo, (forall node, node ∈ nodes -> node.IsIpv4) ->
      Exists fun value => (Kmsg.CompactIPv4NodeInfo.mk nodes).serialize = some value ∧
        Kmsg.CompactIPv4NodeInfo.deserialize stray value = some ⟨nodes⟩) ∧
    (forall hashes : List U160,
      Kmsg.CompactInfoHashes.deserialize stray (Kmsg.CompactInfoHashes.mk hashes).serialize = some ⟨hashes⟩) ∧
    (forall text : Bytes, Exists fun nodes => Exists fun kept =>
      Kmsg.CompactIPv4NodeInfo.deserialize stray (.bytes text) = some nodes ∧
        nodes.serialize = some (.bytes kept) ∧ LongestWhole 26 text kept) ∧
    (forall text : Bytes, Exists fun hashes => Exists fun kept =>
      Kmsg.CompactInfoHashes.deserialize stray (.bytes text) = some hashes ∧
        hashes.serialize = .bytes kept ∧ LongestWhole 20 text kept) ∧
    (forall node : NodeInfo, node.IsIpv4 -> node.ip4ToBytes.map Value.bytes = some node.serialize) ∧
    forall bytes : Bytes, bytes.length = 26 ->
      NodeInfo.deserialize stray (.bytes bytes) = some (NodeInfo.ip4FromBytes bytes) := by
  refine ⟨?_, ?_, Kmsg.CompactIPv4NodeInfo.serialize_deserialize stray,
    Kmsg.CompactInfoHashes.serialize_deserialize stray, ?_, ?_⟩
  · intro nodes ipv4
    rcases @Kmsg.CompactIPv4NodeInfo.serialize_ipv4 ⟨nodes⟩ ipv4 with ⟨value, written, _, read⟩
    exact ⟨value, written, read stray⟩
  · intro hashes
    exact Kmsg.CompactInfoHashes.deserialize_serialize stray ⟨hashes⟩
  · intro node ipv4
    exact NodeInfo.ip4ToBytes_eq_serialize ipv4
  · intro bytes length
    exact NodeInfo.deserialize_eq_ip4FromBytes stray length

/-- One contact and one byte of another. -/
theorem compact_lists_contact :
    (Exists fun value => (Kmsg.CompactIPv4NodeInfo.mk [⟨U160.min, .v4 1 6881⟩]).serialize = some value ∧
      Kmsg.CompactIPv4NodeInfo.deserialize (fun _ => none) value = some ⟨[⟨U160.min, .v4 1 6881⟩]⟩) ∧
    (NodeInfo.mk U160.min (.v4 1 6881)).ip4ToBytes.map Value.bytes =
      some (NodeInfo.mk U160.min (.v4 1 6881)).serialize ∧
    NodeInfo.deserialize (fun _ => none) (.bytes (List.replicate 26 7)) =
      some (NodeInfo.ip4FromBytes (List.replicate 26 7)) ∧
    Exists fun nodes => Exists fun kept =>
      Kmsg.CompactIPv4NodeInfo.deserialize (fun _ => none) (.bytes (List.replicate 27 7)) = some nodes ∧
        nodes.serialize = some (.bytes kept) ∧ LongestWhole 26 (List.replicate 27 7) kept := by
  rcases compact_lists (fun _ => none) with ⟨nodesBack, _, nodesKept, _, same, read⟩
  have ipv4 : (NodeInfo.mk U160.min (.v4 1 6881)).IsIpv4 := trivial
  refine ⟨nodesBack _ ?_, same _ ipv4, read _ (by decide), nodesKept _⟩
  intro node member
  exact List.mem_singleton.mp member ▸ ipv4

end DhtExplorer
