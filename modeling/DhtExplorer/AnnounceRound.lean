import DhtExplorer.PeerStore
import DhtExplorer.Tokens

namespace DhtExplorer

open BigEndian (Bytes)

/-!
# From a token to a recorded peer

A peer that wants to be found asks for the peers of a hash, takes the token of the
answer, and announces itself with it.  Other queries may arrive in between, and they
change the table and the store.  The token is good for any hash, and what it admits
is in every later answer: nothing removes an address from the store.
-/

/-- The token of an answer that carries one. -/
def ResponseKind.grantedToken : ResponseKind -> Option Bytes
  | .kNearest _ token => token
  | .peers _ token _ => some token
  | _ => none

variable {Store : Type} [PeerTree Store]

namespace Server

variable {self : Server} {state after : ServerState Store} {arrival : Arrival} {response : Response} {infoHash : U160}
  {port : UInt16} {token : Bytes}

/-- Every answer about peers lists the neighbourhood of the hash, and carries a token
for the address that asked. -/
theorem handleGetPeers_ok {responseBase : MessageBase} {origin : NodeInfo}
    (handled : self.handleGetPeers state arrival responseBase origin infoHash = some (.ok response)) :
    Exists fun nodes => state.router.lookup infoHash = some nodes ∧
      (response.kind = .kNearest nodes (some (self.tokens.generate self.crypto arrival.chance origin.addr.ip)) ∨
        Exists fun peers =>
          response.kind = .peers peers (self.tokens.generate self.crypto arrival.chance origin.addr.ip) (some nodes)) := by
  unfold handleGetPeers at handled
  dsimp only at handled
  split at handled
  · cases handled
  · split at handled
    · rcases Option.bind_eq_some_iff.mp handled with ⟨socks, _, afterSocks⟩
      rcases Option.bind_eq_some_iff.mp afterSocks with ⟨peers, _, afterPeers⟩
      rcases Option.bind_eq_some_iff.mp afterPeers with ⟨nodes, found, equal⟩
      cases equal
      exact ⟨nodes, found, Or.inr ⟨peers, rfl⟩⟩
    · rcases Option.bind_eq_some_iff.mp handled with ⟨nodes, found, equal⟩
      cases equal
      exact ⟨nodes, found, Or.inl rfl⟩

/-- Where an address is recorded for the hash, the answer lists the whole record. -/
theorem handleGetPeers_recorded {arrivals : List Arrival} (stores : self.Stores arrivals state.peers)
    (sound : state.router.Sound) {responseBase : MessageBase} {origin : NodeInfo}
    (handled : self.handleGetPeers state arrival responseBase origin infoHash = some (.ok response))
    {addr : SocketAddr} (recorded : addr ∈ self.peersOf arrivals infoHash) :
    Exists fun token => Exists fun nodes => response.kind = .peers (self.peersOf arrivals infoHash) token nodes := by
  rcases handleGetPeers_spec arrival stores sound responseBase origin infoHash with ⟨result, same, replied⟩
  rw [handled, Option.some.injEq] at same
  cases works : arrival.dbFails with
  | true =>
      unfold handleGetPeers at handled
      rw [works] at handled
      cases handled
  | false =>
      rcases replied works with ⟨reply, nodes, token, ok, kind⟩
      rw [if_neg (List.ne_nil_of_mem recorded)] at kind
      cases same.trans ok
      exact ⟨token, some nodes, kind⟩

/-- A query that is answered with a response is no echo, and its sender was entered. -/
theorem handleQuery_ok (handled : self.handleQuery state arrival = some (after, .ok response)) :
    Exists fun router => addContact state arrival.query.base = some router ∧
      self.answer { state with router := router } arrival
        (self.responseBase arrival.query.base.transactionId (Receiver.ofSender arrival.query.base.origin)) =
          some (after, .ok response) := by
  unfold handleQuery at handled
  dsimp only at handled
  split at handled
  · cases handled
  · split at handled
    · cases handled
    · exact Option.bind_eq_some_iff.mp handled

theorem handleQuery_token (method : arrival.query.method = .getPeers infoHash)
    (handled : self.handleQuery state arrival = some (after, .ok response)) :
    response.kind.grantedToken =
      some (self.tokens.generate self.crypto arrival.chance arrival.query.base.origin.toNodeInfo.addr.ip) := by
  rcases handleQuery_ok handled with ⟨router, _, answered⟩
  rw [answer, method] at answered
  rcases Option.map_eq_some_iff.mp answered with ⟨result, handledPeers, equal⟩
  cases equal
  rcases handleGetPeers_ok handledPeers with ⟨nodes, _, kind | ⟨peers, kind⟩⟩
  · rw [kind]
    rfl
  · rw [kind]
    rfl

/-- An admissible announcement is confirmed. -/
theorem handleQuery_announce {arrivals : List Arrival} (stores : self.Stores arrivals state.peers)
    (method : arrival.query.method = .announcePeer infoHash port token) (admissible : self.Admissible arrival token)
    {result : QueryResult} (handled : self.handleQuery state arrival = some (after, result)) :
    Exists fun response => result = .ok response ∧ response.kind = .ok := by
  unfold handleQuery at handled
  dsimp only at handled
  split at handled
  · cases handled
  · rw [if_neg admissible.1] at handled
    rcases Option.bind_eq_some_iff.mp handled with ⟨router, _, answered⟩
    rw [answer, method] at answered
    dsimp only at answered
    rw [handleAnnounce_accepted stores method admissible] at answered
    cases answered
    exact ⟨_, rfl, rfl⟩

/-- At each query of a run, the store is what the arrivals before it say. -/
theorem replies_at_spec (writable : self.readOnly = false) {router : Router} (sound : router.Sound)
    {transaction : UInt64} {arrivals : List Arrival} {final : ServerState Store} {results : List QueryResult}
    (replied : PartialRun.replies self.handleQuery ⟨router, transaction, KeyStore.empty⟩ arrivals = some (final, results))
    {index : Nat} (found : arrivals[index]? = some arrival) :
    Exists fun middle : ServerState Store => Exists fun next => Exists fun result =>
      self.handleQuery middle arrival = some (next, result) ∧ results[index]? = some result ∧
      self.Stores (arrivals.take index) middle.peers ∧
      self.Answers (arrivals.take index) arrival middle.peers next.peers result := by
  rcases PartialRun.replies_at replied found with ⟨middle, earlier, next, result, before, handled, there⟩
  rcases self.replies_all Store writable sound transaction (arrivals.take index) with
    ⟨same, others, beforeToo, stores, soundThere⟩
  rw [before, Option.some.injEq, Prod.mk.injEq] at beforeToo
  rw [<- beforeToo.1] at stores soundThere
  rcases Server.handleQuery_spec writable stores soundThere arrival with ⟨_, _, handledToo, _, _, answers⟩
  rw [handled, Option.some.injEq, Prod.mk.injEq] at handledToo
  rw [<- handledToo.1, <- handledToo.2] at answers
  exact ⟨middle, next, result, handled, there, stores, answers⟩

end Server

/-- Whatever else arrives at a server, and when: the token of an answer about peers
admits an announcement from the same address within two minutes, for any hash and
port, and every later answer about that hash lists the announced address. -/
theorem announce_round (Store : Type) [PeerTree Store] (self : Server) (writable : self.readOnly = false) (router : Router)
    (reachable : router.Reachable) (transaction : UInt64) (arrivals : List Arrival) (final : ServerState Store)
    (results : List QueryResult)
    (replied : PartialRun.replies self.handleQuery ⟨router, transaction, KeyStore.empty⟩ arrivals = some (final, results))
    {first second third : Nat} {asked announced later : Arrival}
    (atFirst : arrivals[first]? = some asked) (atSecond : arrivals[second]? = some announced)
    (atThird : arrivals[third]? = some later) (inOrder : second < third)
    {askedHash infoHash : U160} {port : UInt16} {token : Bytes} {granted : Response}
    (asks : asked.query.method = .getPeers askedHash) (answered : results[first]? = some (.ok granted))
    (grants : granted.kind.grantedToken = some token)
    (announces : announced.query.method = .announcePeer infoHash port token)
    (sameIp : announced.query.base.origin.addr.ip = asked.query.base.origin.addr.ip)
    (window : asked.chance.now.toNat ≤ announced.chance.now.toNat ∧
      announced.chance.now.toNat < asked.chance.now.toNat + 120 ∧ asked.chance.now.toNat + 120 < 2 ^ 64)
    (foreign : announced.query.base.origin.id ≠ self.me.id)
    (validId : announced.query.base.origin.toNodeInfo.validate self.crypto announced.chance = true)
    (works : announced.dbFails = false) (asksToo : later.query.method = .getPeers infoHash)
    (laterForeign : later.query.base.origin.id ≠ self.me.id) (laterWorks : later.dbFails = false) :
    (Exists fun response => results[second]? = some (.ok response) ∧ response.kind = .ok) ∧
    Exists fun response => Exists fun peers => Exists fun nextToken => Exists fun nodes =>
      results[third]? = some (.ok response) ∧ response.kind = .peers peers nextToken nodes ∧
      SocketAddr.new announced.query.base.origin.addr.ip port ∈ peers := by
  have sound := reachable.sound
  have addrEq : forall sender : Sender, sender.toNodeInfo.addr = sender.addr := fun sender => by cases sender <;> rfl
  rcases Server.replies_at_spec writable sound replied atFirst with ⟨_, _, _, handledFirst, there, _, _⟩
  rw [answered, Option.some.injEq] at there
  subst there
  rw [Server.handleQuery_token asks handledFirst, Option.some.injEq] at grants
  have admissible : self.Admissible announced token := by
    refine ⟨foreign, ?_, validId, works⟩
    rw [<- grants, TokenGenerator.validate_generate, addrEq, addrEq, sameIp, decide_eq_true rfl, Bool.true_and,
      Bool.and_eq_true, decide_eq_true_iff, decide_eq_true_iff, UInt64.le_iff_toNat_le, UInt64.lt_iff_toNat_lt,
      UInt64.toNat_add]
    have seconds : TOKEN_VALID_SECONDS.toNat = 120 := rfl
    omega
  constructor
  · rcases Server.replies_at_spec writable sound replied atSecond with ⟨_, _, _, handled, there, stores, _⟩
    rcases Server.handleQuery_announce stores announces admissible handled with ⟨response, rfl, kind⟩
    exact ⟨response, there, kind⟩
  · rcases Server.replies_at_spec writable sound replied atThird with ⟨_, _, _, _, there, _, answers⟩
    have member : SocketAddr.new announced.query.base.origin.addr.ip port ∈
        self.peersOf (arrivals.take third) infoHash := by
      rw [Server.mem_peersOf, <- addrEq]
      refine ⟨announced, ?_, Server.accepts_announcePeer announces admissible⟩
      apply List.mem_of_getElem? (i := second)
      rw [List.getElem?_take_of_lt inOrder, atSecond]
    rcases answers.getPeers infoHash asksToo laterForeign laterWorks with ⟨response, nodes, nextToken, rfl, kind⟩
    rw [if_neg (List.ne_nil_of_mem member)] at kind
    exact ⟨response, _, nextToken, some nodes, there, kind, member⟩

namespace Sample

def announcing : List Arrival :=
  [arrivalOf (.getPeers U160.min), arrivalOf (.announcePeer U160.min 6882 announcerToken), arrivalOf (.getPeers U160.min)]

end Sample

open Sample in
/-- The announced port is in the second answer. -/
theorem announce_round_once :
    Exists fun final : ServerState MemoryTree => Exists fun results => Exists fun response => Exists fun peers =>
      Exists fun token => Exists fun nodes =>
        PartialRun.replies peerServer.handleQuery ⟨Router.new peerServer.me, 0, ∅⟩ announcing = some (final, results) ∧
        results[2]? = some (.ok response) ∧ response.kind = .peers peers token nodes ∧
        SocketAddr.v4 0x01010101 6882 ∈ peers := by
  have reachable := Router.reachable_new peerServer.me
  have foreign : announcer.id ≠ peerServer.me.id := by decide
  rcases peerServer.replies_all MemoryTree rfl reachable.sound 0 announcing with ⟨final, results, replied, _⟩
  have atFirst : announcing[0]? = some (arrivalOf (.getPeers U160.min)) := rfl
  have atSecond : announcing[1]? = some (arrivalOf (.announcePeer U160.min 6882 announcerToken)) := rfl
  have atThird : announcing[2]? = some (arrivalOf (.getPeers U160.min)) := rfl
  rcases Server.replies_at_spec rfl reachable.sound replied atFirst with ⟨_, _, _, handled, there, _, answers⟩
  rcases answers.getPeers U160.min rfl foreign rfl with ⟨granted, nodes, token, rfl, _⟩
  have grants := Server.handleQuery_token rfl handled
  rcases announce_round MemoryTree peerServer rfl _ reachable 0 announcing final results replied atFirst atSecond atThird
    (by decide) rfl there grants rfl rfl (by decide) foreign (by decide +kernel) rfl rfl foreign rfl with
    ⟨_, response, peers, nextToken, more, answered, kind, member⟩
  exact ⟨final, results, response, peers, nextToken, more, replied, answered, kind, member⟩

end DhtExplorer
