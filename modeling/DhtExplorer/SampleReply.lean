import DhtExplorer.Library.BencodeSize
import DhtExplorer.ReplyWriting

namespace DhtExplorer

open BigEndian (Bytes)
open Bencode (Value encode entrySize stringSize)

/-!
# The size of a reply with samples

The number of samples is bounded so that the hashes alone fit in one datagram.
The rest of the reply is the envelope, the counts and the neighbourhood of the
target, and the reserve for it is two hundred bytes.  The size of the whole reply
is computed here from the numbers of hashes and contacts, and compared with what
an IPv4 datagram can carry.
-/

/-- The bytes of a reply with the given lengths and numbers. -/
def sampleReplySize (tidLength contacts available samples : Nat) : Nat :=
  99 + stringSize tidLength + stringSize (26 * contacts) + Nat.log 10 available + stringSize (20 * samples)

/-! ## The parts of a reply -/

namespace Kmsg

theorem CompactIPv4NodeInfo.length_serialize {self : CompactIPv4NodeInfo}
    (ipv4 : forall node, node ∈ self.dhtNodes -> node.IsIpv4) :
    Exists fun value => self.serialize = some value ∧
      (encode value).length = stringSize (26 * self.dhtNodes.length) := by
  rcases mapM_ip4ToBytes ipv4 with ⟨chunks, written, sized, back⟩
  refine ⟨.bytes chunks.flatten, by rw [serialize, written]; rfl, ?_⟩
  have sameLength : chunks.length = self.dhtNodes.length := by rw [<- back, List.length_map]
  rw [Bencode.length_encode_bytes, VecOps.length_flatten_of_sized sized, sameLength]
  rfl

theorem CompactInfoHashes.length_serialize (self : CompactInfoHashes) :
    (encode self.serialize).length = stringSize (20 * self.infoHashes.length) := by
  have sized : forall chunk, chunk ∈ self.infoHashes.map U160.toBeBytes -> chunk.length = 20 := by
    intro chunk member
    rcases List.mem_map.mp member with ⟨id, _, rfl⟩
    exact U160.length_toBeBytes id
  rw [serialize, Bencode.length_encode_bytes, VecOps.length_flatten_of_sized sized, List.length_map]

theorem length_serializeU160 (id : U160) : (encode (serializeU160 id)).length = 23 := by
  rw [serializeU160, Bencode.length_encode_bytes, U160.length_toBeBytes]
  decide

/-- The dictionary inside the reply. -/
def sampleResponse (id : U160) (nodes : List NodeInfo) (samples : List U160) (available : UInt64) : KResponse where
  id := id
  nodes := some ⟨nodes⟩
  bep51 := { samples := some ⟨samples⟩, num := some available, interval := some 0 }

theorem length_sampleResponse (id : U160) {nodes : List NodeInfo}
    (ipv4 : forall node, node ∈ nodes -> node.IsIpv4) (samples : List U160) (available : UInt64) :
    Exists fun value => (sampleResponse id nodes samples available).serialize = some value ∧
      (encode value).length =
        66 + stringSize (26 * nodes.length) + Nat.log 10 available.toNat + stringSize (20 * samples.length) := by
  have list : forall node, node ∈ (CompactIPv4NodeInfo.mk nodes).dhtNodes -> node.IsIpv4 := ipv4
  rcases CompactIPv4NodeInfo.length_serialize list with ⟨nodesValue, written, nodesSize⟩
  have entries : Bencode.present ((sampleResponse id nodes samples available).fields (some nodesValue)) =
      [(utf8 "id", serializeU160 id), (utf8 "nodes", nodesValue), (utf8 "interval", u16 0),
        (utf8 "samples", (CompactInfoHashes.mk samples).serialize), (utf8 "num", u64 available)] := rfl
  have idSize : entrySize (utf8 "id", serializeU160 id) = 27 := by
    rw [Bencode.entrySize_of_short (by decide), length_serializeU160]
    decide
  have nodesEntry : entrySize (utf8 "nodes", nodesValue) = 7 + stringSize (26 * nodes.length) := by
    rw [Bencode.entrySize_of_short (by decide), nodesSize]
    rfl
  have interval : entrySize (utf8 "interval", u16 0) = 13 := by
    rw [Bencode.entrySize_of_short (by decide), u16, Bencode.length_encode_natCast]
    decide
  have samplesEntry : entrySize (utf8 "samples", (CompactInfoHashes.mk samples).serialize) =
      9 + stringSize (20 * samples.length) := by
    rw [Bencode.entrySize_of_short (by decide), CompactInfoHashes.length_serialize]
    rfl
  have num : entrySize (utf8 "num", u64 available) = 8 + Nat.log 10 available.toNat := by
    rw [Bencode.entrySize_of_short (by decide), u64, Bencode.length_encode_natCast]
    change 3 + 2 + (Nat.log 10 available.toNat + 3) = _
    omega
  refine ⟨_, congrArg (Option.map _) written, ?_⟩
  rw [Bencode.length_encode_record, entries]
  simp only [List.map_cons, List.map_nil, List.sum_cons, List.sum_nil, idSize, nodesEntry, interval, samplesEntry, num]
  omega

end Kmsg

/-- The size of a reply with samples to an IPv4 address. -/
theorem Message.length_samples (base : MessageBase) {ip : BitVec 32} {port : UInt16}
    (requestor : base.requestorAddr = some (.v4 ip port)) {nodes : List NodeInfo}
    (ipv4 : forall node, node ∈ nodes -> node.IsIpv4) (samples : List U160) (available : UInt64)
    (notReadOnly : base.readOnly = false) :
    Exists fun bytes =>
      (Message.response (base.intoResponse (.samples nodes samples available 0))).toBytes Bencode.textCodec =
        some bytes ∧
      bytes.length = sampleReplySize base.transactionId.length nodes.length available.toNat samples.length := by
  rcases Kmsg.length_sampleResponse base.origin.id ipv4 samples available with ⟨value, written, valueSize⟩
  have entries : Bencode.present
      ((Message.response (base.intoResponse (.samples nodes samples available 0))).toKmsg.fields (some value)) =
      [(Kmsg.utf8 "t", .bytes base.transactionId), (Kmsg.utf8 "y", Kmsg.string Kmsg.Y_RESPONSE),
        (Kmsg.utf8 "r", value), (Kmsg.utf8 "ip", Kmsg.SocketAddrWrapper.serialize ⟨base.requestorAddr⟩),
        (Kmsg.utf8 "ro", Kmsg.intFromBool base.readOnly)] := rfl
  have tid : entrySize (Kmsg.utf8 "t", .bytes base.transactionId) = 3 + stringSize base.transactionId.length := by
    rw [Bencode.entrySize_of_short (by decide), Bencode.length_encode_bytes]
    rfl
  have kind : entrySize (Kmsg.utf8 "y", Kmsg.string Kmsg.Y_RESPONSE) = 6 := by
    rw [Bencode.entrySize_of_short (by decide), Kmsg.string, Bencode.length_encode_bytes]
    decide
  have reply : entrySize (Kmsg.utf8 "r", value) = 3 + (encode value).length := by
    rw [Bencode.entrySize_of_short (by decide)]
    rfl
  have address : entrySize (Kmsg.utf8 "ip", Kmsg.SocketAddrWrapper.serialize ⟨base.requestorAddr⟩) = 12 := by
    have octets : ((IpAddr.v4 ip).octets ++ u16ToBeBytes port).length = 6 := by
      rw [List.length_append, length_u16ToBeBytes]
      exact congrArg (· + 2) (BigEndian.length_encode _ _)
    rw [Bencode.entrySize_of_short (by decide), requestor]
    change _ + (encode (.bytes ((IpAddr.v4 ip).octets ++ u16ToBeBytes port))).length = _
    rw [Bencode.length_encode_bytes, octets]
    decide
  have readOnly : entrySize (Kmsg.utf8 "ro", Kmsg.intFromBool base.readOnly) = 7 := by
    rw [notReadOnly]
    decide
  have serialized : (Message.response (base.intoResponse (.samples nodes samples available 0))).toKmsg.serialize =
      some (Bencode.record
        ((Message.response (base.intoResponse (.samples nodes samples available 0))).toKmsg.fields (some value))) :=
    congrArg (Option.map _) written
  refine ⟨_, congrArg (Option.map _) serialized, ?_⟩
  change (encode (Bencode.record _)).length = _
  rw [Bencode.length_encode_record, entries]
  simp only [List.map_cons, List.map_nil, List.sum_cons, List.sum_nil, tid, kind, reply, address, readOnly, valueSize,
    sampleReplySize]
  omega

/-- The length has one digit. -/
theorem stringSize_small {length : Nat} (small : length < 10) : stringSize length = length + 2 := by
  rw [stringSize, Nat.log_of_lt small]
  omega

/-- An error names its cause and nothing else. -/
theorem Message.length_serverError (base : MessageBase) (notReadOnly : base.readOnly = false) :
    Exists fun bytes =>
      (Message.error (base.intoError .server)).toBytes Bencode.textCodec = some bytes ∧
      bytes.length = 68 + stringSize base.transactionId.length := by
  have entries : Bencode.present ((Message.error (base.intoError .server)).toKmsg.fields none) =
      [(Kmsg.utf8 "t", .bytes base.transactionId), (Kmsg.utf8 "y", Kmsg.string Kmsg.Y_ERROR),
        (Kmsg.utf8 "e", Kmsg.Error.serialize ⟨KnownError.server.code, KnownError.server.description⟩),
        (Kmsg.utf8 "ip", .bytes []), (Kmsg.utf8 "ro", Kmsg.intFromBool base.readOnly)] := rfl
  have tid : entrySize (Kmsg.utf8 "t", .bytes base.transactionId) = 3 + stringSize base.transactionId.length := by
    rw [Bencode.entrySize_of_short (by decide), Bencode.length_encode_bytes]
    rfl
  have others : (([(Kmsg.utf8 "y", Kmsg.string Kmsg.Y_ERROR),
      (Kmsg.utf8 "e", Kmsg.Error.serialize ⟨KnownError.server.code, KnownError.server.description⟩),
      (Kmsg.utf8 "ip", .bytes []), (Kmsg.utf8 "ro", Kmsg.intFromBool false)]).map entrySize).sum = 63 := by
    decide +kernel
  refine ⟨_, rfl, ?_⟩
  change (encode (Bencode.record _)).length = _
  rw [Bencode.length_encode_record, entries, notReadOnly, List.map_cons, List.sum_cons, others, tid]
  omega

/-! ## How many samples and contacts there are -/

variable {Store : Type} [PeerTree Store]

/-- The keys that are read as info hashes. -/
def hashCount (peers : Store) : Nat := (KeyStore.keys peers).countP fun key => key.length == 20

theorem length_hashes (peers : Store) :
    ((KeyStore.keys peers).filterMap fun key => if key.length = 20 then some (U160.fromBeBytes key) else none).length =
      hashCount peers := by
  rw [List.length_filterMap_eq_countP, hashCount]
  apply List.countP_congr
  intro key _
  by_cases sized : key.length = 20 <;> simp [sized]

/-- The whole reply fits in a datagram.  A store that fails is answered with an
error, which is small. -/
def SampleFits (state : ServerState Store) (arrival : Arrival) (target : U160) : Prop :=
  arrival.dbFails = true ∨
    forall nodes, state.router.lookup target = some nodes ->
      sampleReplySize arrival.query.base.transactionId.length nodes.length (UInt64.ofNat (KeyStore.size state.peers)).toNat
        (min Server.maxSamples (hashCount state.peers)) ≤ MAX_DATAGRAM

variable {self : Server} {state : ServerState Store} {arrival : Arrival} {target : U160} {result : QueryResult}

/-- What `handle_sample` makes of a query, with the size of the reply. -/
theorem Server.handleSample_size
    (table : forall node, node ∈ Bucket.stored state.router.buckets -> node.IsIpv4)
    (sender : arrival.query.base.origin.toNodeInfo.IsIpv4)
    (handled : Server.handleSample state arrival
      (self.responseBase arrival.query.base.transactionId (Receiver.ofSender arrival.query.base.origin)) target =
        some result) :
    Exists fun bytes => result.intoMessage.toBytes Bencode.textCodec = some bytes ∧
      ((arrival.dbFails = true ∧ bytes.length = 68 + stringSize arrival.query.base.transactionId.length) ∨
        (arrival.dbFails = false ∧ Exists fun nodes => state.router.lookup target = some nodes ∧
          bytes.length = sampleReplySize arrival.query.base.transactionId.length nodes.length
            (UInt64.ofNat (KeyStore.size state.peers)).toNat (min Server.maxSamples (hashCount state.peers)))) := by
  have requestor : Exists fun ip => Exists fun port =>
      (self.responseBase arrival.query.base.transactionId (Receiver.ofSender arrival.query.base.origin)).requestorAddr =
        some (.v4 ip port) := by
    cases origin : arrival.query.base.origin with
    | remote node | me node =>
        rw [origin] at sender
        rcases node with ⟨id, addr⟩
        cases addr with
        | v4 ip port => exact ⟨ip, port, rfl⟩
        | v6 ip port flowinfo scopeId => cases sender
  rcases requestor with ⟨ip, port, requestor⟩
  unfold Server.handleSample at handled
  cases works : arrival.dbFails with
  | true =>
      rw [works, if_pos rfl, Option.some.injEq] at handled
      subst handled
      rcases Message.length_serverError
        (self.responseBase arrival.query.base.transactionId (Receiver.ofSender arrival.query.base.origin)) rfl with
        ⟨bytes, written, size⟩
      exact ⟨bytes, written, Or.inl ⟨rfl, size⟩⟩
  | false =>
      rw [works, if_neg Bool.false_ne_true] at handled
      rcases Option.map_eq_some_iff.mp handled with ⟨nodes, found, rfl⟩
      rcases Message.length_samples
        (self.responseBase arrival.query.base.transactionId (Receiver.ofSender arrival.query.base.origin)) requestor
        (fun node member => table node (Bucket.mem_stored_of_lookup found node member)) _ _ rfl with
        ⟨bytes, written, size⟩
      refine ⟨bytes, written, Or.inr ⟨rfl, nodes, found, ?_⟩⟩
      rw [size, Sampler.length, length_hashes]
      rfl

/-- The reply to a sampling query of IPv4 nodes fits in a datagram exactly when the
number computed from its parts does, or the store has failed. -/
theorem sample_reply_fits_iff (self : Server) (state : ServerState Store) (arrival : Arrival) (target : U160)
    (table : forall node, node ∈ Bucket.stored state.router.buckets -> node.IsIpv4)
    (sender : arrival.query.base.origin.toNodeInfo.IsIpv4) (tid : arrival.query.base.transactionId.length ≤ 2)
    (result : QueryResult)
    (handled : Server.handleSample state arrival
      (self.responseBase arrival.query.base.transactionId (Receiver.ofSender arrival.query.base.origin)) target =
        some result) :
    Exists fun bytes => result.intoMessage.toBytes Bencode.textCodec = some bytes ∧
      (bytes.length ≤ MAX_DATAGRAM <-> SampleFits state arrival target) := by
  rcases Server.handleSample_size table sender handled with
    ⟨bytes, written, ⟨fails, size⟩ | ⟨works, nodes, found, size⟩⟩
  · refine ⟨bytes, written, fun _ => Or.inl fails, fun _ => ?_⟩
    rw [size, stringSize_small (by omega), MAX_DATAGRAM]
    omega
  · refine ⟨bytes, written, ?_, ?_⟩
    · intro fits
      apply Or.inr
      intro other found'
      rw [found, Option.some.injEq] at found'
      rw [<- found', <- size]
      exact fits
    · rintro (fails | fits)
      · rw [works] at fails
        cases fails
      · rw [size]
        exact fits nodes found

/-- A short list of hashes leaves room for the contacts of a bucket. -/
theorem sampleReplySize_le {tidLength contacts available samples : Nat} (tid : tidLength ≤ 2) (bucket : contacts ≤ 8)
    (word : available < 2 ^ 64) (few : samples ≤ 3258) :
    sampleReplySize tidLength contacts available samples ≤ MAX_DATAGRAM := by
  have contactsLog : Nat.log 10 (26 * contacts) ≤ 2 :=
    Nat.le_trans (Nat.log_mono_right (by omega)) (by decide : Nat.log 10 208 ≤ 2)
  have availableLog : Nat.log 10 available ≤ 19 :=
    Nat.le_trans (Nat.log_mono_right (Nat.le_of_lt word)) (by decide : Nat.log 10 (2 ^ 64) ≤ 19)
  have samplesLog : Nat.log 10 (20 * samples) ≤ 4 :=
    Nat.le_trans (Nat.log_mono_right (by omega)) (by decide : Nat.log 10 65160 ≤ 4)
  rw [sampleReplySize, stringSize_small (by omega), stringSize, stringSize, MAX_DATAGRAM]
  omega

/-- Up to 3258 hashes are no danger to a node with buckets of the usual size. -/
theorem sampleFits_of_few_hashes {own : U160} (live : Live own K_SIZE 0 state.router.buckets)
    (tid : arrival.query.base.transactionId.length ≤ 2) (few : hashCount state.peers ≤ 3258) :
    SampleFits state arrival target := by
  apply Or.inr
  intro nodes found
  rcases lookup_bounds live target with ⟨nodesToo, foundToo, bound, _⟩
  rw [Router.lookup, foundToo, Option.some.injEq] at found
  subst found
  exact sampleReplySize_le tid bound (UInt64.toNat_lt _) (Nat.le_trans (Nat.min_le_right _ _) few)

namespace FullStore

def hash (index : Nat) : U160 := .new 0 (BitVec.ofNat 32 index)

/-- As many records as there are samples in a reply. -/
def peers : MemoryTree := Std.TreeMap.ofList ((List.range Server.maxSamples).map fun index => ((hash index).toBeBytes, []))

/-- A table with one full bucket. -/
def contacts : List NodeInfo := (List.range 8).map fun index => ⟨hash index, .v4 0x7f000001 6881⟩

def server : ServerState MemoryTree where
  router := ⟨[⟨U160.min, 0, K_SIZE, contacts⟩], []⟩
  transaction := 0
  peers := peers

def query : Arrival where
  query :=
    { method := .sampleInfohashes U160.min
      base :=
        { origin := .remote ⟨U160.new 1 0, .v4 0x01010101 6881⟩
          destination := .me
          requestorAddr := none
          transactionId := [0, 1] } }
  chance := ⟨0, 0, 0, 0, .reservoir fun _ => 0⟩

theorem distinct : ((List.range Server.maxSamples).map fun index => ((hash index).toBeBytes, ([] : Bytes))).Pairwise
    fun first second => ¬compare first.1 second.1 = .eq := by
  rw [List.pairwise_map]
  refine List.Pairwise.imp_of_mem ?_ List.pairwise_lt_range
  intro first second firstMember secondMember less same
  rw [List.mem_range] at firstMember secondMember
  have hashes := U160.toBeBytes_injective (Std.compare_eq_iff_eq.mp same)
  have words := congrArg (fun id => BitVec.toNat (U160.lsbytes id)) hashes
  have bound : Server.maxSamples < 2 ^ 32 := by decide
  change (BitVec.ofNat 32 first).toNat = (BitVec.ofNat 32 second).toNat at words
  rw [BitVec.toNat_ofNat, BitVec.toNat_ofNat, Nat.mod_eq_of_lt (by omega), Nat.mod_eq_of_lt (by omega)] at words
  omega

theorem size_peers : peers.size = 3266 := by
  rw [peers, Std.TreeMap.size_ofList distinct, List.length_map, List.length_range]
  rfl

theorem hashCount_peers : hashCount peers = 3266 := by
  have sized : peers.keys.countP (fun key => key.length == 20) = peers.keys.length := by
    rw [List.countP_eq_length]
    intro key member
    rw [Std.TreeMap.mem_keys, peers, Std.TreeMap.mem_ofList, List.contains_iff_mem, List.map_map] at member
    rcases List.mem_map.mp member with ⟨index, _, rfl⟩
    exact beq_iff_eq.mpr (U160.length_toBeBytes _)
  change peers.keys.countP (fun key => key.length == 20) = 3266
  rw [sized, Std.TreeMap.length_keys, size_peers]

theorem lookup_contacts : server.router.lookup U160.min = some contacts := by decide +kernel

theorem contacts_ipv4 : forall node, node ∈ Bucket.stored server.router.buckets -> node.IsIpv4 := by
  decide +kernel

theorem handled : Exists fun result =>
    Server.handleSample server query (Sample.peerServer.responseBase query.query.base.transactionId
      (Receiver.ofSender query.query.base.origin)) U160.min = some result := by
  rw [Server.handleSample, if_neg (by decide)]
  exact ⟨_, Option.map_eq_some_iff.mpr ⟨contacts, lookup_contacts, rfl⟩⟩

end FullStore

theorem sample_reply_fits_iff_full : Exists fun result : QueryResult => Exists fun bytes : Bytes =>
    Server.handleSample FullStore.server FullStore.query
        (Sample.peerServer.responseBase FullStore.query.query.base.transactionId
          (Receiver.ofSender FullStore.query.query.base.origin)) U160.min = some result ∧
      result.intoMessage.toBytes Bencode.textCodec = some bytes ∧
      (bytes.length ≤ MAX_DATAGRAM <-> SampleFits FullStore.server FullStore.query U160.min) := by
  rcases FullStore.handled with ⟨result, handled⟩
  rcases sample_reply_fits_iff Sample.peerServer FullStore.server FullStore.query U160.min FullStore.contacts_ipv4
    (by decide) (by decide) result handled with ⟨bytes, written, fits⟩
  exact ⟨result, bytes, handled, written, fits⟩

/-- A full store and a full bucket make a reply that no datagram can carry. -/
theorem sample_reply_too_long :
    (forall node, node ∈ Bucket.stored FullStore.server.router.buckets -> node.IsIpv4) ∧
      FullStore.query.query.base.origin.toNodeInfo.IsIpv4 ∧
      FullStore.query.query.base.transactionId.length ≤ 2 ∧
      Exists fun result => Exists fun bytes =>
        Server.handleSample FullStore.server FullStore.query
          (Sample.peerServer.responseBase FullStore.query.query.base.transactionId
            (Receiver.ofSender FullStore.query.query.base.origin)) U160.min = some result ∧
        result.intoMessage.toBytes Bencode.textCodec = some bytes ∧ bytes.length = 65644 ∧
        MAX_DATAGRAM < bytes.length := by
  refine ⟨FullStore.contacts_ipv4, by decide, by decide, ?_⟩
  rcases FullStore.handled with ⟨result, handled⟩
  rcases Server.handleSample_size FullStore.contacts_ipv4 (by decide) handled with
    ⟨bytes, written, ⟨fails, _⟩ | ⟨_, nodes, found, size⟩⟩
  · cases fails
  · rw [FullStore.lookup_contacts, Option.some.injEq] at found
    have samples : min Server.maxSamples (hashCount FullStore.server.peers) = 3266 := by
      change min Server.maxSamples (hashCount FullStore.peers) = 3266
      rw [FullStore.hashCount_peers]
      decide
    have available : (UInt64.ofNat (KeyStore.size FullStore.server.peers)).toNat = 3266 := by
      change (UInt64.ofNat FullStore.peers.size).toNat = 3266
      rw [FullStore.size_peers]
      decide
    rw [samples, available, <- found] at size
    have total : sampleReplySize 2 8 3266 3266 = 65644 := by decide
    have length : bytes.length = 65644 := size.trans total
    exact ⟨result, bytes, handled, written, length, by rw [length]; decide⟩

end DhtExplorer
