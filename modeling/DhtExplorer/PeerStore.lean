import DhtExplorer.Library.BencodeText
import DhtExplorer.Server

namespace DhtExplorer

open BigEndian (Bytes)
open Kmsg (SocketAddrWrapper)

/-!
# The peer store

The store is a function of the announcements that were accepted.  Under each
info hash it keeps the announced addresses, each once, in the order in which
they were first accepted; every other query leaves it alone.  The record is
decoded, extended and encoded again at every announcement, so the invariant
says that what is written can be read back.
-/

namespace Server

variable {Store : Type} [PeerTree Store]

/-! ## What the store stands for -/

/-- An announcement is accepted from another node with a valid id and a valid
token, as long as the store works. -/
def Admissible (self : Server) (arrival : Arrival) (token : Bytes) : Prop :=
  arrival.query.base.origin.id ≠ self.me.id ∧
    self.tokens.validate self.crypto arrival.chance token arrival.query.base.origin.toNodeInfo.addr.ip = true ∧
    arrival.query.base.origin.toNodeInfo.validate self.crypto arrival.chance = true ∧ arrival.dbFails = false

instance (self : Server) (arrival : Arrival) (token : Bytes) : Decidable (self.Admissible arrival token) :=
  inferInstanceAs (Decidable (_ ∧ _ ∧ _ ∧ _))

/-- The info hash and the address of an accepted announcement. -/
def accepts (self : Server) (arrival : Arrival) : Option (U160 × SocketAddr) :=
  match arrival.query.method with
  | .announcePeer infoHash port token =>
      if self.Admissible arrival token then
        some (infoHash, SocketAddr.new arrival.query.base.origin.toNodeInfo.addr.ip port)
      else none
  | _ => none

/-- The addresses announced for a hash, in order of acceptance. -/
def announcementsOf (self : Server) (arrivals : List Arrival) (infoHash : U160) : List SocketAddr :=
  ((arrivals.filterMap self.accepts).filter fun announced => announced.1 == infoHash).map Prod.snd

/-- The addresses announced for a hash, each once, in order of first acceptance. -/
def peersOf (self : Server) (arrivals : List Arrival) (infoHash : U160) : List SocketAddr :=
  (self.announcementsOf arrivals infoHash).eraseDups

/-- The hashes with an accepted announcement. -/
def announcedHashes (self : Server) (arrivals : List Arrival) : Finset U160 :=
  ((arrivals.filterMap self.accepts).map Prod.fst).toFinset

/-- A record as the server writes it. -/
def recordOf (self : Server) (addrs : List SocketAddr) : Bytes :=
  self.writeRecord (addrs.map fun addr => ⟨some addr⟩)

/-- The tree holds the record of every announced hash, and nothing else. -/
structure Stores (server : Server) (arrivals : List Arrival) (peers : Store) : Prop where
  record : forall infoHash : U160, KeyStore.get peers infoHash.toBeBytes =
    if server.peersOf arrivals infoHash = [] then none
    else some (server.recordOf (server.peersOf arrivals infoHash))
  keys : forall key, key ∈ KeyStore.keys peers -> Exists fun infoHash : U160 => key = infoHash.toBeBytes

theorem stores_empty (self : Server) : self.Stores [] (KeyStore.empty : Store) where
  record := fun _ => KeyStore.get_empty _
  keys := by
    intro key member
    rw [KeyStore.keys_empty] at member
    cases member

/-! ## Records -/

variable {self : Server} {arrivals : List Arrival} {next : Arrival} {infoHash other : U160} {addr : SocketAddr}

theorem accepts_announcePeer {port : UInt16} {token : Bytes}
    (method : next.query.method = .announcePeer infoHash port token) (admissible : self.Admissible next token) :
    self.accepts next = some (infoHash, SocketAddr.new next.query.base.origin.toNodeInfo.addr.ip port) := by
  rw [accepts, method]
  exact if_pos admissible

theorem accepts_eq_some {announced : U160 × SocketAddr} (accepted : self.accepts next = some announced) :
    Exists fun infoHash => Exists fun port => Exists fun token =>
      next.query.method = .announcePeer infoHash port token ∧ self.Admissible next token ∧
      announced = (infoHash, SocketAddr.new next.query.base.origin.toNodeInfo.addr.ip port) := by
  cases method : next.query.method with
  | announcePeer infoHash port token =>
      rw [accepts, method] at accepted
      dsimp only at accepted
      by_cases admissible : self.Admissible next token
      · rw [if_pos admissible, Option.some.injEq] at accepted
        exact ⟨infoHash, port, token, rfl, admissible, accepted.symm⟩
      · rw [if_neg admissible] at accepted
        cases accepted
  | _ =>
      rw [accepts, method] at accepted
      cases accepted

theorem mem_peersOf : addr ∈ self.peersOf arrivals infoHash <->
    Exists fun arrival => arrival ∈ arrivals ∧ self.accepts arrival = some (infoHash, addr) := by
  rw [peersOf, List.mem_eraseDups]
  simp [announcementsOf, List.mem_filterMap]

theorem mem_announcedHashes : infoHash ∈ self.announcedHashes arrivals <-> self.peersOf arrivals infoHash ≠ [] := by
  have member : infoHash ∈ self.announcedHashes arrivals <->
      Exists fun addr => addr ∈ self.peersOf arrivals infoHash := by
    simp only [mem_peersOf]
    simp only [announcedHashes, List.mem_toFinset, List.mem_map, List.mem_filterMap, Prod.exists]
    constructor
    · rintro ⟨_, addr, ⟨arrival, among, accepted⟩, rfl⟩
      exact ⟨addr, arrival, among, accepted⟩
    · rintro ⟨addr, arrival, among, accepted⟩
      exact ⟨infoHash, addr, ⟨arrival, among, accepted⟩, rfl⟩
  rw [member]
  exact List.length_pos_iff_exists_mem.symm.trans List.length_pos_iff

theorem nodup_peersOf : (self.peersOf arrivals infoHash).Nodup := VecOps.nodup_eraseDups _

private theorem announcementsOf_concat :
    self.announcementsOf (arrivals ++ [next]) infoHash =
      self.announcementsOf arrivals infoHash ++ self.announcementsOf [next] infoHash := by
  simp only [announcementsOf, List.filterMap_append, List.filter_append, List.map_append]

/-- What an accepted announcement does to the addresses of its hash. -/
theorem peersOf_concat_self (accepted : self.accepts next = some (infoHash, addr)) :
    self.peersOf (arrivals ++ [next]) infoHash =
      if addr ∈ self.peersOf arrivals infoHash then self.peersOf arrivals infoHash
      else self.peersOf arrivals infoHash ++ [addr] := by
  have last : self.announcementsOf [next] infoHash = [addr] := by
    simp [announcementsOf, accepted]
  rw [peersOf, announcementsOf_concat, last, VecOps.eraseDups_concat]
  simp only [List.contains_iff_mem, peersOf, List.mem_eraseDups]

theorem peersOf_concat_other (unaffected : forall addr, self.accepts next ≠ some (infoHash, addr)) :
    self.peersOf (arrivals ++ [next]) infoHash = self.peersOf arrivals infoHash := by
  have none : self.announcementsOf [next] infoHash = [] := by
    cases accepted : self.accepts next with
    | none => simp [announcementsOf, accepted]
    | some announced =>
        have different : announced.1 ≠ infoHash := by
          rintro rfl
          exact unaffected announced.2 accepted
        simp [announcementsOf, accepted, different]
  rw [peersOf, announcementsOf_concat, none, List.append_nil, peersOf]

/-- Every accepted address is an IP and a port, so a record can carry it. -/
theorem plain_of_mem_peersOf (member : addr ∈ self.peersOf arrivals infoHash) : addr.Plain := by
  rcases mem_peersOf.mp member with ⟨arrival, _, accepted⟩
  rcases accepts_eq_some accepted with ⟨_, port, _, _, _, equal⟩
  cases equal
  exact SocketAddr.plain_new _ _

theorem readRecord_writeRecord (self : Server) {socks : List SocketAddrWrapper}
    (plain : forall sock, sock ∈ socks -> sock.Plain) : self.readRecord (self.writeRecord socks) = some socks := by
  rw [readRecord, writeRecord, self.bencode.faithful _ (SocketAddrWrapper.canonical_serializeAll socks)]
  exact SocketAddrWrapper.deserializeAll_serializeAll _ plain

theorem readRecord_recordOf (self : Server) {addrs : List SocketAddr} (plain : forall addr, addr ∈ addrs -> addr.Plain) :
    self.readRecord (self.recordOf addrs) = some (addrs.map fun addr => ⟨some addr⟩) := by
  apply self.readRecord_writeRecord
  intro sock member
  rcases List.mem_map.mp member with ⟨addr, addrMember, rfl⟩
  intro same equal
  cases equal
  exact plain _ addrMember

/-! ## One announcement -/

/-- The record that an announcement starts from. -/
private theorem recordedSocks_eq {peers : Store} (stores : self.Stores arrivals peers) (infoHash : U160) :
    self.recordedSocks peers infoHash =
      some ((self.peersOf arrivals infoHash).map fun addr => SocketAddrWrapper.mk (some addr)) := by
  rw [recordedSocks, stores.record infoHash]
  by_cases fresh : self.peersOf arrivals infoHash = []
  · rw [if_pos fresh, fresh]
    rfl
  · rw [if_neg fresh]
    exact self.readRecord_recordOf fun addr member => plain_of_mem_peersOf member

private theorem contains_wrapped (addrs : List SocketAddr) (addr : SocketAddr) :
    (addrs.map fun addr => SocketAddrWrapper.mk (some addr)).contains ⟨some addr⟩ = decide (addr ∈ addrs) := by
  rw [Bool.eq_iff_iff, List.contains_iff_mem, decide_eq_true_iff, List.mem_map]
  constructor
  · rintro ⟨other, member, equal⟩
    cases equal
    exact member
  · exact fun member => ⟨addr, member, rfl⟩

/-- An accepted announcement rewrites the record of its hash. -/
theorem handleAnnounce_accepted {peers : Store} {responseBase : MessageBase} {port : UInt16} {token : Bytes}
    (stores : self.Stores arrivals peers) (method : next.query.method = .announcePeer infoHash port token)
    (admissible : self.Admissible next token) :
    self.handleAnnounce peers next responseBase next.query.base.origin.toNodeInfo infoHash port token =
      some (KeyStore.insert peers infoHash.toBeBytes (self.recordOf (self.peersOf (arrivals ++ [next]) infoHash)),
        .ok (responseBase.intoResponse .ok)) := by
  rw [peersOf_concat_self (accepts_announcePeer method admissible)]
  rcases admissible with ⟨_, validToken, validId, works⟩
  unfold handleAnnounce
  rw [validToken, validId, works, recordedSocks_eq stores infoHash]
  simp only [Bool.not_true, Bool.false_eq_true, if_false, Option.map_some, contains_wrapped, decide_eq_true_iff]
  split
  · rfl
  · rw [recordOf, List.map_append]
    rfl

/-- Any other announcement is answered with an error. -/
theorem handleAnnounce_refused (peers : Store) {responseBase : MessageBase} {port : UInt16} {token : Bytes}
    (foreign : next.query.base.origin.id ≠ self.me.id) (refused : ¬self.Admissible next token) :
    Exists fun error =>
      self.handleAnnounce peers next responseBase next.query.base.origin.toNodeInfo infoHash port token =
        some (peers, .error error) := by
  unfold handleAnnounce
  split
  · exact ⟨_, rfl⟩
  · rename_i validToken
    split
    · exact ⟨_, rfl⟩
    · rename_i validId
      split
      · exact ⟨_, rfl⟩
      · rename_i works
        refine absurd ⟨foreign, ?_, ?_, ?_⟩ refused
        · simpa using validToken
        · simpa using validId
        · simpa using works

/-- The tree after an accepted announcement. -/
theorem Stores.announce {peers : Store} (stores : self.Stores arrivals peers)
    (accepted : self.accepts next = some (infoHash, addr)) :
    self.Stores (arrivals ++ [next])
      (KeyStore.insert peers infoHash.toBeBytes (self.recordOf (self.peersOf (arrivals ++ [next]) infoHash))) where
  record := by
    intro other
    by_cases same : infoHash = other
    · subst same
      have announced : self.peersOf (arrivals ++ [next]) infoHash ≠ [] := by
        refine List.ne_nil_of_mem (mem_peersOf.mpr ⟨next, ?_, accepted⟩)
        exact List.mem_append_right _ List.mem_cons_self
      rw [KeyStore.get_insert_self, if_neg announced]
    · have differs : other.toBeBytes ≠ infoHash.toBeBytes := fun equal => same (U160.toBeBytes_injective equal).symm
      have unaffected : forall addr, self.accepts next ≠ some (other, addr) := by
        intro addr equal
        rw [accepted, Option.some.injEq, Prod.mk.injEq] at equal
        exact same equal.1
      rw [KeyStore.get_insert_of_ne _ _ _ _ differs, peersOf_concat_other unaffected]
      exact stores.record other
  keys := by
    intro key member
    rcases KeyStore.mem_keys_insert.mp member with equal | old
    · exact ⟨infoHash, equal⟩
    · exact stores.keys key old

/-- Nothing else changes what the tree stands for. -/
theorem Stores.ignore {peers : Store} (stores : self.Stores arrivals peers) (ignored : self.accepts next = none) :
    self.Stores (arrivals ++ [next]) peers where
  record := by
    intro infoHash
    rw [peersOf_concat_other fun addr equal => Option.some_ne_none _ (equal.symm.trans ignored)]
    exact stores.record infoHash
  keys := stores.keys

/-! ## Reading the store -/

/-- A key of the tree is the key of an announced hash. -/
theorem Stores.mem_iff {peers : Store} (stores : self.Stores arrivals peers) (infoHash : U160) :
    infoHash.toBeBytes ∈ KeyStore.keys peers <-> infoHash ∈ self.announcedHashes arrivals := by
  rw [KeyStore.mem_keys, stores.record infoHash, mem_announcedHashes]
  by_cases fresh : self.peersOf arrivals infoHash = []
  · rw [if_pos fresh]
    exact ⟨by simp, fun announced => absurd fresh announced⟩
  · rw [if_neg fresh]
    exact ⟨fun _ => fresh, fun _ => rfl⟩

/-- The keys, read as hashes. -/
theorem Stores.keys_eq {peers : Store} (stores : self.Stores arrivals peers) :
    Exists fun hashes : List U160 => KeyStore.keys peers = hashes.map U160.toBeBytes ∧ hashes.Nodup ∧
      forall infoHash, infoHash ∈ hashes <-> infoHash ∈ self.announcedHashes arrivals := by
  have spelled : forall key, key ∈ KeyStore.keys peers -> (U160.fromBeBytes key).toBeBytes = key := by
    intro key member
    rcases stores.keys key member with ⟨infoHash, rfl⟩
    rw [U160.fromBeBytes_toBeBytes]
  have keysEq : KeyStore.keys peers = ((KeyStore.keys peers).map U160.fromBeBytes).map U160.toBeBytes := by
    rw [List.map_map]
    calc
      KeyStore.keys peers = (KeyStore.keys peers).map id := (List.map_id _).symm
      _ = (KeyStore.keys peers).map (U160.toBeBytes ∘ U160.fromBeBytes) :=
        List.map_congr_left fun key member => (spelled key member).symm
  refine ⟨(KeyStore.keys peers).map U160.fromBeBytes, keysEq, ?_, fun infoHash => ?_⟩
  · have unique : (((KeyStore.keys peers).map U160.fromBeBytes).map U160.toBeBytes).Nodup :=
      keysEq ▸ KeyStore.nodup_keys peers
    exact unique.of_map
  · rw [<- stores.mem_iff]
    constructor
    · intro member
      rcases List.mem_map.mp member with ⟨key, keyMember, rfl⟩
      rwa [spelled key keyMember]
    · intro member
      exact List.mem_map.mpr ⟨infoHash.toBeBytes, member, U160.fromBeBytes_toBeBytes infoHash⟩

/-- The keys of the store, read as a sampling answer reads them. -/
theorem Stores.read_keys {peers : Store} (stores : self.Stores arrivals peers) :
    Exists fun hashes : List U160 =>
      ((KeyStore.keys peers).filterMap fun key => if key.length = 20 then some (U160.fromBeBytes key) else none) = hashes ∧
      hashes.Nodup ∧ forall infoHash, infoHash ∈ hashes <-> infoHash ∈ self.announcedHashes arrivals := by
  rcases stores.keys_eq with ⟨hashes, keysEq, unique, members⟩
  refine ⟨hashes, ?_, unique, members⟩
  rw [keysEq, List.filterMap_map]
  refine (List.filterMap_congr fun infoHash _ => ?_).trans List.filterMap_some
  change (if infoHash.toBeBytes.length = 20 then some (U160.fromBeBytes infoHash.toBeBytes) else none) = _
  rw [if_pos (U160.length_toBeBytes infoHash), U160.fromBeBytes_toBeBytes]

/-- As many hashes are available as were announced. -/
theorem Stores.size_eq {peers : Store} (stores : self.Stores arrivals peers) :
    KeyStore.size peers = (self.announcedHashes arrivals).card := by
  rcases stores.keys_eq with ⟨hashes, keysEq, unique, members⟩
  have same : hashes.toFinset = self.announcedHashes arrivals := by
    ext infoHash
    rw [List.mem_toFinset]
    exact members infoHash
  rw [<- KeyStore.length_keys, keysEq, List.length_map, <- same, List.toFinset_card_of_nodup unique]

/-! ## One more query -/

/-- What the store promises about the next query, after the given arrivals. -/
structure Answers (server : Server) (arrivals : List Arrival) (next : Arrival) (before after : Store)
    (result : QueryResult) : Prop where
  refused : server.accepts next = none -> after = before
  onlyOwn : forall infoHash addr key, server.accepts next = some (infoHash, addr) ->
    key ≠ infoHash.toBeBytes -> KeyStore.get after key = KeyStore.get before key
  getPeers : forall infoHash, next.query.method = .getPeers infoHash ->
    next.query.base.origin.id ≠ server.me.id -> next.dbFails = false ->
    Exists fun response => Exists fun nodes => Exists fun token => result = .ok response ∧
      response.kind =
        if server.peersOf arrivals infoHash = [] then .kNearest nodes (some token)
        else .peers (server.peersOf arrivals infoHash) token (some nodes)
  samples : forall target, next.query.method = .sampleInfohashes target ->
    next.query.base.origin.id ≠ server.me.id -> next.dbFails = false ->
    Exists fun response => Exists fun nodes => Exists fun samples => result = .ok response ∧
      response.kind = .samples nodes samples (UInt64.ofNat (server.announcedHashes arrivals).card) 0 ∧
      forall infoHash, infoHash ∈ samples -> infoHash ∈ server.announcedHashes arrivals

/-- Queries about other things leave the store alone. -/
private theorem Answers.of_others {before : Store} {result : QueryResult}
    (ignored : self.accepts next = none)
    (noPeers : forall infoHash, next.query.method = .getPeers infoHash -> next.query.base.origin.id = self.me.id)
    (noSamples : forall target, next.query.method = .sampleInfohashes target ->
      next.query.base.origin.id = self.me.id) :
    self.Answers arrivals next before before result where
  refused := fun _ => rfl
  onlyOwn := by
    intro infoHash addr key accepted
    rw [ignored] at accepted
    cases accepted
  getPeers := fun infoHash method foreign => absurd (noPeers infoHash method) foreign
  samples := fun target method foreign => absurd (noSamples target method) foreign

private theorem mapM_wrapped (addrs : List SocketAddr) :
    (addrs.map fun addr => SocketAddrWrapper.mk (some addr)).mapM SocketAddrWrapper.socketAddr = some addrs := by
  induction addrs with
  | nil => rfl
  | cons addr rest ih =>
      rw [List.map_cons, List.mapM_cons, ih]
      rfl

/-- Neither `unwrap` is reached on an absent value. -/
theorem handleGetPeers_spec (next : Arrival) {state : ServerState Store} (stores : self.Stores arrivals state.peers)
    (sound : state.router.Sound) (responseBase : MessageBase) (origin : NodeInfo) (infoHash : U160) :
    Exists fun result => self.handleGetPeers state next responseBase origin infoHash = some result ∧
      (next.dbFails = false ->
        Exists fun response => Exists fun nodes => Exists fun token => result = .ok response ∧
          response.kind =
            if self.peersOf arrivals infoHash = [] then .kNearest nodes (some token)
            else .peers (self.peersOf arrivals infoHash) token (some nodes)) := by
  rcases sound.lookup infoHash with ⟨nodes, found⟩
  unfold handleGetPeers
  cases works : next.dbFails with
  | true => exact ⟨_, rfl, by simp⟩
  | false =>
      have record := stores.record infoHash
      dsimp only
      by_cases fresh : self.peersOf arrivals infoHash = []
      · rw [if_pos fresh] at record
        rw [if_neg Bool.false_ne_true, record, found]
        exact ⟨_, rfl, fun _ => ⟨_, nodes, _, rfl, (if_pos fresh).symm⟩⟩
      · rw [if_neg fresh] at record
        have plain : forall addr, addr ∈ self.peersOf arrivals infoHash -> addr.Plain :=
          fun addr member => plain_of_mem_peersOf member
        have read := self.readRecord_recordOf plain
        rw [if_neg Bool.false_ne_true, record, found]
        simp only [read, mapM_wrapped, Option.bind_eq_bind, Option.bind_some]
        exact ⟨_, rfl, fun _ => ⟨_, nodes, _, rfl, (if_neg fresh).symm⟩⟩

theorem handleSample_spec (next : Arrival) {state : ServerState Store} (stores : self.Stores arrivals state.peers)
    (sound : state.router.Sound) (responseBase : MessageBase) (target : U160) :
    Exists fun result => handleSample state next responseBase target = some result ∧
      (next.dbFails = false ->
        Exists fun response => Exists fun nodes => Exists fun samples => result = .ok response ∧
          response.kind = .samples nodes samples (UInt64.ofNat (self.announcedHashes arrivals).card) 0 ∧
          forall infoHash, infoHash ∈ samples -> infoHash ∈ self.announcedHashes arrivals) := by
  rcases sound.lookup target with ⟨nodes, found⟩
  rcases stores.read_keys with ⟨hashes, read, _, members⟩
  unfold handleSample
  cases works : next.dbFails with
  | true => exact ⟨_, rfl, by simp⟩
  | false =>
      dsimp only
      rw [if_neg Bool.false_ne_true, read, found, stores.size_eq]
      refine ⟨_, rfl, fun _ => ⟨_, nodes, _, rfl, rfl, fun infoHash member => ?_⟩⟩
      exact (members infoHash).mp (Sampler.mem_of_mem member)

/-- An announcement is recorded under its own key, or refused. -/
private theorem handleAnnounce_spec {peers : Store} {infoHash : U160} {port : UInt16} {token : Bytes}
    (stores : self.Stores arrivals peers) (method : next.query.method = .announcePeer infoHash port token)
    (foreign : next.query.base.origin.id ≠ self.me.id) (responseBase : MessageBase) :
    Exists fun after => Exists fun result =>
      self.handleAnnounce peers next responseBase next.query.base.origin.toNodeInfo infoHash port token =
        some (after, result) ∧
      self.Stores (arrivals ++ [next]) after ∧ self.Answers arrivals next peers after result := by
  by_cases admissible : self.Admissible next token
  · have accepted := accepts_announcePeer method admissible
    refine ⟨_, _, handleAnnounce_accepted stores method admissible, stores.announce accepted, ?_, ?_, ?_, ?_⟩
    · intro refused
      rw [accepted] at refused
      cases refused
    · intro other addr key same different
      rw [accepted, Option.some.injEq, Prod.mk.injEq] at same
      rw [<- same.1] at different
      exact KeyStore.get_insert_of_ne _ _ _ _ different
    · simp [method]
    · simp [method]
  · have ignored : self.accepts next = none := by
      rw [accepts, method]
      exact if_neg admissible
    rcases handleAnnounce_refused peers foreign admissible with ⟨error, refused⟩
    refine ⟨peers, .error error, refused, stores.ignore ignored, ?_⟩
    exact .of_others ignored (by simp [method]) (by simp [method])

/-- The reply to a query from another node. -/
theorem answer_spec {state : ServerState Store} (stores : self.Stores arrivals state.peers)
    (sound : state.router.Sound) (foreign : next.query.base.origin.id ≠ self.me.id) (responseBase : MessageBase) :
    Exists fun after => Exists fun result => self.answer state next responseBase = some (after, result) ∧
      after.router = state.router ∧ self.Stores (arrivals ++ [next]) after.peers ∧
      self.Answers arrivals next state.peers after.peers result := by
  unfold answer
  cases method : next.query.method with
  | ping | put _ | get =>
      have ignored : self.accepts next = none := by simp [accepts, method]
      exact ⟨state, _, rfl, rfl, stores.ignore ignored, .of_others ignored (by simp [method]) (by simp [method])⟩
  | findNode target =>
      have ignored : self.accepts next = none := by simp [accepts, method]
      rcases sound.lookup target with ⟨nodes, found⟩
      refine ⟨state, _, by dsimp only; rw [found]; rfl, rfl, stores.ignore ignored, ?_⟩
      exact .of_others ignored (by simp [method]) (by simp [method])
  | getPeers infoHash =>
      have ignored : self.accepts next = none := by simp [accepts, method]
      rcases handleGetPeers_spec next stores sound responseBase next.query.base.origin.toNodeInfo infoHash with
        ⟨result, handled, replied⟩
      refine ⟨state, result, by dsimp only; rw [handled]; rfl, rfl, stores.ignore ignored, fun _ => rfl, ?_, ?_, ?_⟩
      · intro infoHash addr key accepted
        rw [ignored] at accepted
        cases accepted
      · intro asked same _ works
        cases method.symm.trans same
        exact replied works
      · simp [method]
  | announcePeer infoHash port token =>
      rcases handleAnnounce_spec stores method foreign responseBase with ⟨peers, result, handled, stores', answers⟩
      exact ⟨{ state with peers := peers }, result, by dsimp only; rw [handled]; rfl, rfl, stores', answers⟩
  | sampleInfohashes target =>
      have ignored : self.accepts next = none := by simp [accepts, method]
      rcases handleSample_spec next stores sound responseBase target with ⟨result, handled, replied⟩
      refine ⟨state, result, by dsimp only; rw [handled]; rfl, rfl, stores.ignore ignored, fun _ => rfl, ?_, ?_, ?_⟩
      · intro infoHash addr key accepted
        rw [ignored] at accepted
        cases accepted
      · simp [method]
      · intro asked same _ works
        cases method.symm.trans same
        exact replied works

/-- Every query is answered, and the store stays what the announcements say. -/
theorem handleQuery_spec (writable : self.readOnly = false) {state : ServerState Store}
    (stores : self.Stores arrivals state.peers) (sound : state.router.Sound) (next : Arrival) :
    Exists fun after => Exists fun result => self.handleQuery state next = some (after, result) ∧
      after.router.Sound ∧ self.Stores (arrivals ++ [next]) after.peers ∧
      self.Answers arrivals next state.peers after.peers result := by
  unfold handleQuery
  rw [writable]
  simp only [Bool.false_eq_true, if_false]
  by_cases echo : next.query.base.origin.id = self.me.id
  · have ignored : self.accepts next = none := by
      cases accepted : self.accepts next with
      | none => rfl
      | some announced =>
          rcases accepts_eq_some accepted with ⟨_, _, _, _, admissible, _⟩
          exact absurd echo admissible.1
    rw [if_pos echo]
    exact ⟨state, _, rfl, sound, stores.ignore ignored, .of_others ignored (fun _ _ => echo) fun _ _ => echo⟩
  · rw [if_neg echo]
    have admitted : Exists fun router => addContact state next.query.base = some router ∧ router.Sound := by
      unfold addContact
      split
      · exact ⟨state.router, rfl, sound⟩
      · exact sound.add next.query.base.origin.toNodeInfo
    rcases admitted with ⟨router, added, routerSound⟩
    have storesWith : self.Stores arrivals { state with router := router }.peers := stores
    rcases answer_spec storesWith routerSound echo
        (self.responseBase next.query.base.transactionId (Receiver.ofSender next.query.base.origin)) with
      ⟨after, result, answered, sameRouter, storesAfter, answers⟩
    refine ⟨after, result, ?_, sameRouter ▸ routerSound, storesAfter, answers⟩
    rw [added, Option.bind_some, answered]

/-- One more query keeps what the store stands for. -/
theorem stores_step (writable : self.readOnly = false) (arrivals : List Arrival) (state : ServerState Store)
    (next : Arrival) (holds : self.Stores arrivals state.peers ∧ state.router.Sound) :
    Exists fun after => Exists fun result => self.handleQuery state next = some (after, result) ∧
      self.Stores (arrivals ++ [next]) after.peers ∧ after.router.Sound := by
  rcases handleQuery_spec writable holds.1 holds.2 next with ⟨after, result, handled, soundAfter, storesAfter, _⟩
  exact ⟨after, result, handled, storesAfter, soundAfter⟩

/-- Every query of a run is answered. -/
theorem replies_all (Store : Type) [PeerTree Store] (self : Server) (writable : self.readOnly = false) {router : Router}
    (sound : router.Sound) (transaction : UInt64) (arrivals : List Arrival) :
    Exists fun final : ServerState Store => Exists fun results =>
      PartialRun.replies self.handleQuery ⟨router, transaction, KeyStore.empty⟩ arrivals = some (final, results) ∧
      self.Stores arrivals final.peers ∧ final.router.Sound := by
  have start : self.Stores [] (ServerState.mk router transaction (KeyStore.empty : Store)).peers ∧
      (ServerState.mk router transaction (KeyStore.empty : Store)).router.Sound := ⟨self.stores_empty, sound⟩
  exact PartialRun.replies_of_history (stores_step writable) arrivals start

end Server

/-- Whatever queries a server with an empty store handles, it never panics, and
the store is what the accepted announcements say: each record reads back as the
announced addresses of its hash, each once, in order of first acceptance.  The
next query finds and changes the records accordingly. -/
theorem peer_store (Store : Type) [PeerTree Store] (self : Server) (writable : self.readOnly = false) (router : Router)
    (reachable : router.Reachable) (transaction : UInt64) (arrivals : List Arrival) :
    Exists fun final : ServerState Store => Exists fun results =>
      PartialRun.replies self.handleQuery ⟨router, transaction, KeyStore.empty⟩ arrivals = some (final, results) ∧
      self.Stores arrivals final.peers ∧
      (forall (infoHash : U160) record, KeyStore.get final.peers infoHash.toBeBytes = some record ->
        self.readRecord record =
          some ((self.peersOf arrivals infoHash).map fun addr => SocketAddrWrapper.mk (some addr)) ∧
        self.peersOf arrivals infoHash ≠ [] ∧ (self.peersOf arrivals infoHash).Nodup) ∧
      forall next, Exists fun after => Exists fun result =>
        self.handleQuery final next = some (after, result) ∧
        self.Answers arrivals next final.peers after.peers result := by
  rcases self.replies_all Store writable reachable.sound transaction arrivals with ⟨final, results, replied, stores, sound⟩
  refine ⟨final, results, replied, stores, ?_, ?_⟩
  · intro infoHash record found
    have expected := stores.record infoHash
    rw [found] at expected
    by_cases fresh : self.peersOf arrivals infoHash = []
    · rw [if_pos fresh] at expected
      cases expected
    · rw [if_neg fresh, Option.some.injEq] at expected
      rw [expected]
      exact ⟨self.readRecord_recordOf fun addr member => Server.plain_of_mem_peersOf member, fresh,
        Server.nodup_peersOf⟩
  · intro next
    rcases Server.handleQuery_spec writable stores sound next with ⟨after, result, handled, _, _, answers⟩
    exact ⟨after, result, handled, answers⟩

namespace Sample

/-- A node that answers queries.  No random bytes are used below. -/
def peerServer : Server where
  readOnly := false
  me := ⟨U160.min, .v4 0x7f000001 1337⟩
  tokens := ⟨List.replicate 32 0⟩
  crypto := ⟨fun _ => 0, fun _ _ _ => 0⟩
  bencode := Bencode.textCodec

/-- The checksum of the sample server makes this id valid for every address. -/
def announcer : NodeInfo := ⟨U160.new 0 1, .v4 0x01010101 6881⟩

def arrivalOf (method : QueryMethod) : Arrival where
  query := ⟨method, { origin := .remote announcer, destination := .me, requestorAddr := none, transactionId := [0, 1] }⟩
  chance := ⟨0, 0, 0, 0, .reservoir fun _ => 0⟩

def announcerToken : Bytes :=
  peerServer.tokens.generate peerServer.crypto ⟨0, 0, 0, 0, .reservoir fun _ => 0⟩ announcer.addr.ip

/-- The first announcement has no token. -/
def announcements : List Arrival :=
  [arrivalOf (.announcePeer U160.min 6881 []), arrivalOf (.announcePeer U160.min 6882 announcerToken)]

end Sample

open Sample in
/-- The next queries get the address that was announced with a token, and its hash. -/
theorem peer_store_announced :
    Exists fun final : ServerState MemoryTree => Exists fun results =>
      PartialRun.replies peerServer.handleQuery ⟨Router.new peerServer.me, 0, ∅⟩ announcements = some (final, results) ∧
      (Exists fun after => Exists fun response => Exists fun nodes => Exists fun token =>
        peerServer.handleQuery final (arrivalOf (.getPeers U160.min)) = some (after, .ok response) ∧
        response.kind = .peers [.v4 0x01010101 6882] token (some nodes)) ∧
      Exists fun after => Exists fun response => Exists fun nodes => Exists fun samples =>
        peerServer.handleQuery final (arrivalOf (.sampleInfohashes U160.min)) = some (after, .ok response) ∧
        response.kind = .samples nodes samples 1 0 ∧ forall infoHash, infoHash ∈ samples -> infoHash = U160.min := by
  rcases peer_store MemoryTree peerServer rfl (Router.new peerServer.me) (Router.reachable_new _) 0 announcements with
    ⟨final, results, replied, _, _, next⟩
  have peers : peerServer.peersOf announcements U160.min = [.v4 0x01010101 6882] := by
    decide +kernel
  have hashes : peerServer.announcedHashes announcements = {U160.min} := by
    decide +kernel
  have foreign : announcer.id ≠ peerServer.me.id := by
    decide
  refine ⟨final, results, replied, ?_, ?_⟩
  · rcases next (arrivalOf (.getPeers U160.min)) with ⟨after, result, handled, answers⟩
    rcases answers.getPeers U160.min rfl foreign rfl with ⟨response, nodes, token, rfl, kind⟩
    rw [if_neg (by rw [peers]; exact List.cons_ne_nil _ _), peers] at kind
    exact ⟨after, response, nodes, token, handled, kind⟩
  · rcases next (arrivalOf (.sampleInfohashes U160.min)) with ⟨after, result, handled, answers⟩
    rcases answers.samples U160.min rfl foreign rfl with ⟨response, nodes, samples, rfl, kind, listed⟩
    rw [hashes] at kind listed
    refine ⟨after, response, nodes, samples, handled, kind, fun infoHash member => ?_⟩
    exact Finset.mem_singleton.mp (listed infoHash member)

end DhtExplorer
