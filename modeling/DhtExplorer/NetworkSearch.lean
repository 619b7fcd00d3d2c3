import DhtExplorer.AnnounceRound
import DhtExplorer.LookupAdvance
import DhtExplorer.QueryRound
import DhtExplorer.SearchDescent

namespace DhtExplorer

open BigEndian (Bytes)

/-!
# A search among servers

The nodes that a search asks run the same program: they answer from their routing
tables, through the handler and the codec.  If every table is well placed and knows a
node closer to the target than its own, the answers lead the search to the closest
node, and a search for peers gets what that node has recorded.

The searching node is read only, so it enters no table.  Tables may change between
the answers.  They may know nodes that do not answer, as long as these do not hide
the closer one: a node that shares more bits with the target is never hidden.
-/

/-! ## One answer -/

/-- A reply that the server of a node gave to a query of a read-only node, as it was
written. -/
structure ServedReply (Store : Type) [PeerTree Store] (method : QueryMethod) (node : NodeInfo) where
  server : Server
  state : ServerState Store
  arrival : Arrival
  after : ServerState Store
  reply : Response
  bytes : Bytes
  me_eq : server.me = node
  method_eq : arrival.query.method = method
  fromReader : arrival.query.base.readOnly = true
  handled : server.handleQuery state arrival = some (after, .ok reply)
  written : (Message.response reply).toBytes server.bencode = some bytes

/-- The reply fits in a datagram, and was received from the node as the response. -/
structure ServedAnswer (Store : Type) [PeerTree Store] (method : QueryMethod) (node : NodeInfo) (response : Response)
    extends ServedReply Store method node where
  fits : bytes.length ≤ MAX_DATAGRAM
  read : Message.receive server.bencode bytes node.addr = .ok (.response response)

variable {Store : Type} [PeerTree Store]

namespace ServedReply

variable {method : QueryMethod} {node : NodeInfo}

def table (reply : ServedReply Store method node) : Chain := reply.state.router.buckets

/-- Wherever the reply arrives, it is a response. -/
theorem isResponse (reply : ServedReply Store method node) : Exists fun response =>
    Message.receive reply.server.bencode reply.bytes node.addr = .ok (.response response) :=
  ⟨_, Message.receive_written reply.written node.addr⟩

/-- The query enters no table, so the handler answers from the state as it was. -/
theorem answered (reply : ServedReply Store method node) :
    reply.server.answer reply.state reply.arrival
      (reply.server.responseBase reply.arrival.query.base.transactionId
        (Receiver.ofSender reply.arrival.query.base.origin)) = some (reply.after, .ok reply.reply) := by
  rcases Server.handleQuery_ok reply.handled with ⟨router, entered, answered⟩
  rw [Server.addContact, if_pos reply.fromReader, Option.some.injEq] at entered
  rw [<- entered] at answered
  exact answered

end ServedReply

namespace ServedAnswer

variable {config : SearchConfig} {method : QueryMethod} {node : NodeInfo} {response : Response}

theorem received_kind (answer : ServedAnswer Store method node response) : response.kind = answer.reply.kind.received := by
  have read := Message.receive_written answer.written node.addr
  rw [answer.read, Except.ok.injEq, Message.delivered, Message.response.injEq] at read
  exact congrArg Response.kind read

theorem asksForPeers (answer : ServedAnswer Store config.method node response) (forPeers : config.findPeers = true) :
    answer.arrival.query.method = .getPeers config.target :=
  answer.method_eq.trans (by rw [SearchConfig.method, forPeers, if_pos rfl])

/-- A successful answer of either kind lists what the lookup of the target returns. -/
theorem kind_cases (answer : ServedAnswer Store config.method node response) :
    Exists fun nodes => Bucket.lookup answer.table config.target = some nodes ∧
      ((Exists fun token => answer.reply.kind = .kNearest nodes token) ∨
        (config.findPeers = true ∧ Exists fun peers => Exists fun token =>
          answer.reply.kind = .peers peers token (some nodes))) := by
  have answered := answer.answered
  cases forPeers : config.findPeers with
  | false =>
      have method : answer.arrival.query.method = .findNode config.target :=
        answer.method_eq.trans (by rw [SearchConfig.method, forPeers, if_neg Bool.false_ne_true])
      rw [Server.answer, method] at answered
      rcases Option.map_eq_some_iff.mp answered with ⟨nodes, found, same⟩
      have reply := Except.ok.inj (Prod.mk.inj same).2
      exact ⟨nodes, found, Or.inl ⟨none, congrArg Response.kind reply.symm⟩⟩
  | true =>
      rw [Server.answer, answer.asksForPeers forPeers] at answered
      rcases Option.map_eq_some_iff.mp answered with ⟨result, handled, same⟩
      rw [(Prod.mk.inj same).2] at handled
      rcases Server.handleGetPeers_ok handled with ⟨nodes, found, kind | ⟨peers, kind⟩⟩
      · exact ⟨nodes, found, Or.inl ⟨_, kind⟩⟩
      · exact ⟨nodes, found, Or.inr ⟨rfl, peers, _, kind⟩⟩

/-- The search takes the nodes of the answer, whatever node the task was for. -/
theorem reported (answer : ServedAnswer Store config.method node response) (asked : NodeInfo) :
    Exists fun nodes => Bucket.lookup answer.table config.target = some nodes ∧
      Search.reportedBy (config.result (some response) (.sendFind asked)) = nodes ∧
      config.result (some response) (.sendFind asked) ≠ .removeOne asked := by
  rcases answer.kind_cases with ⟨nodes, found, kind⟩
  refine ⟨nodes, found, ?_⟩
  rw [SearchConfig.result, SearchConfig.sendFind, answer.received_kind]
  rcases kind with ⟨token, kind⟩ | ⟨forPeers, peers, token, kind⟩
  · rw [kind]
    exact ⟨rfl, by simp [ResponseKind.received]⟩
  · rw [kind, ResponseKind.received, forPeers]
    exact ⟨rfl, by simp⟩

end ServedAnswer

/-- Where the server has recorded an address for the target, a search for peers gets it. -/
theorem ServedAnswer.peers {config : SearchConfig} {node : NodeInfo} {response : Response}
    (answer : ServedAnswer Store config.method node response) (forPeers : config.findPeers = true) {arrivals : List Arrival}
    (sound : answer.state.router.Sound) (stores : answer.server.Stores arrivals answer.state.peers) {addr : SocketAddr}
    (recorded : addr ∈ answer.server.peersOf arrivals config.target) :
    Exists fun peers => Exists fun token => Exists fun nodes => response.kind = .peers peers token nodes ∧
      addr ∈ peers := by
  have answered := answer.answered
  rw [Server.answer, answer.asksForPeers forPeers] at answered
  rcases Option.map_eq_some_iff.mp answered with ⟨result, handled, same⟩
  rw [(Prod.mk.inj same).2] at handled
  rcases Server.handleGetPeers_recorded stores sound handled recorded with ⟨token, nodes, kind⟩
  have receivedKind := answer.received_kind
  rw [kind] at receivedKind
  refine ⟨_, token, nodes, receivedKind, List.mem_map.mpr ⟨addr, recorded, ?_⟩⟩
  exact (Server.plain_of_mem_peersOf recorded).plain_eq

/-! ## Connected tables -/

namespace Neighbourhood

variable {config : SearchConfig} (neighbourhood : Neighbourhood config)

/-- The table of a member is well placed and holds known nodes.  Unless the member is
the closest one, the table holds a closer member, which shares more bits with the
target or is not outnumbered by others. -/
structure Connected (node : NodeInfo) (table : Chain) : Prop where
  live : Live node.id K_SIZE 0 table
  known : forall stored, stored ∈ Bucket.stored table -> neighbourhood.Known stored
  closer : node = neighbourhood.closest ∨ Exists fun stored => stored ∈ Bucket.stored table ∧
    neighbourhood.members stored ∧ CloserThan node.id config.target stored ∧
    (SharesMore node.id config.target stored.id ∨ forall other, other ∈ Bucket.stored table -> neighbourhood.members other)

/-- A task ends with nodes that are known.  The task of a member ends with an answer
from a connected table, given in a state with the property. -/
def Served (holds : NodeInfo -> Server -> ServerState Store -> Prop) (outcome : Option Response) : SearchTask -> Prop
  | .start nodes => forall node, node ∈ nodes -> neighbourhood.Known node
  | .sendFind node =>
      (neighbourhood.members node -> Exists fun response => outcome = some response ∧
        Exists fun answer : ServedAnswer Store config.method node response =>
          neighbourhood.Connected node answer.table ∧ holds node answer.server answer.state) ∧
      (¬neighbourhood.members node -> forall other,
        other ∈ Search.reportedBy (config.result outcome (.sendFind node)) -> neighbourhood.Known other)

def Serves (holds : NodeInfo -> Server -> ServerState Store -> Prop) (search : Search config.target)
    (completion : Completion) : Prop :=
  forall task, search.tasks[completion.task]? = some task -> neighbourhood.Served holds completion.outcome task

variable {neighbourhood}

/-- The lookup of a connected table lists a closer member. -/
theorem Connected.lookup {node : NodeInfo} {table : Chain} (connected : neighbourhood.Connected node table)
    {nodes : List NodeInfo} (found : Bucket.lookup table config.target = some nodes) :
    node = neighbourhood.closest ∨ Exists fun closer => closer ∈ nodes ∧ neighbourhood.members closer ∧
      CloserThan node.id config.target closer := by
  refine connected.closer.imp_right ?_
  rintro ⟨stored, inside, isMember, closer, more | allMembers⟩
  · rcases connected.live.mem_lookup (sharesPrefix_zero _ _) inside more with ⟨same, foundToo, listed⟩
    rw [found, Option.some.injEq] at foundToo
    exact ⟨stored, foundToo ▸ listed, isMember, closer⟩
  · rcases connected.live.closer_lookup inside closer with ⟨same, foundToo, other, listed, otherCloser⟩
    rw [found, Option.some.injEq] at foundToo
    subst foundToo
    exact ⟨other, listed, allMembers other (Bucket.mem_stored_of_lookup found other listed), otherCloser⟩

theorem Serves.helps {holds : NodeInfo -> Server -> ServerState Store -> Prop} {search : Search config.target}
    {completion : Completion} (serves : neighbourhood.Serves holds search completion) :
    neighbourhood.Helps search completion := by
  intro task found
  have served := serves task found
  cases task with
  | start nodes => exact ⟨served, trivial⟩
  | sendFind node =>
      by_cases isMember : neighbourhood.members node
      · rcases served.1 isMember with ⟨response, outcome, answer, connected, _⟩
        rcases answer.reported node with ⟨nodes, looked, reported, kept⟩
        rw [outcome]
        refine ⟨fun other listed => ?_, fun _ => ⟨kept, (connected.lookup looked).imp_right ?_⟩⟩
        · rw [reported] at listed
          exact connected.known other (Bucket.mem_stored_of_lookup looked other listed)
        · rintro ⟨closer, listed, closerMember, less⟩
          exact ⟨closer, reported ▸ listed, closerMember, less⟩
      · exact ⟨served.2 isMember, fun member => absurd member isMember⟩

theorem few_of_none : (∅ : Finset NodeInfo).card < SEEN_LIMIT :=
  Finset.card_empty.trans_lt (Nat.zero_lt_succ _)

end Neighbourhood

/-! ## Searches of a node -/

/-- A search for nodes that starts from the table of a read-only node, among servers
with connected tables, returns the closest member.  Only nodes that are no members
stand in front of it. -/
theorem find_nodes_reaches_closest (Store : Type) [PeerTree Store] (router : Router) (crypto : Crypto) (chance : Chance)
    (target : U160) (n : UInt8) (network : List Completion)
    (neighbourhood : Neighbourhood ⟨crypto, chance, target, false⟩) (start list : List NodeInfo)
    (looked : router.lookup target = some start) (returned : router.findNNodes crypto chance target n network = some list)
    (member : NodeInfo) (among : member ∈ start) (isMember : neighbourhood.members member)
    (enough : neighbourhood.others.card < n.toNat)
    (served : PartialRun.Permitted (Search.step ⟨crypto, chance, target, false⟩)
      (neighbourhood.Serves fun _ _ (_ : ServerState Store) => True) (Search.start target start) network) :
    Exists fun before => Exists fun after => list = before ++ neighbourhood.closest :: after ∧
      forall node, node ∈ before -> node ∈ neighbourhood.others := by
  rcases Option.bind_eq_some_iff.mp returned with ⟨found, searched, expected⟩
  rw [Router.find, looked, Option.bind_some] at searched
  rcases findNStartingAt_eq_some searched with ⟨final, ran, ended, rfl⟩
  have guided := Search.Guided.run among isMember (served.imp fun _ _ serves => serves.helps) ran
  cases result : final.found n with
  | peers peers =>
      rw [result] at expected
      cases expected
  | kClosest nodes =>
      rw [result] at expected
      cases expected
      exact guided.found_split ended result enough

namespace SampleSearch

/-- A member as a server, with the contacts in its only bucket. -/
def serverOf (node : NodeInfo) : Server where
  readOnly := false
  me := node
  tokens := ⟨List.replicate 32 0⟩
  crypto := config.crypto
  bencode := Bencode.textCodec

def tableOf (node : NodeInfo) (stored : List NodeInfo) : Chain := [⟨node.id, 0, K_SIZE, stored⟩]

def arrival : Arrival where
  query :=
    { method := config.method
      base :=
        { origin := .remote invalid, destination := .me, requestorAddr := none, transactionId := [0, 7]
          readOnly := true } }
  chance := config.chance

/-- What the member answers, as it is received. -/
def responseOf (node : NodeInfo) (stored : List NodeInfo) : Response :=
  ⟨.kNearest stored none,
    { origin := .remote ⟨node.id, node.addr⟩, destination := .me, requestorAddr := some invalid.addr
      transactionId := [0, 7] }⟩

def stateOf (node : NodeInfo) (stored : List NodeInfo) : ServerState MemoryTree := ⟨⟨tableOf node stored, []⟩, 0, ∅⟩

/-- What the member writes. -/
def replyOf (node : NodeInfo) (stored : List NodeInfo) : Response :=
  ((serverOf node).responseBase [0, 7] (.node invalid)).intoResponse (.kNearest stored none)

theorem served {node : NodeInfo} {stored : List NodeInfo} (foreign : invalid.id ≠ node.id)
    (found : Bucket.lookup (tableOf node stored) config.target = some stored)
    (ipv4 : forall contact, contact ∈ stored -> contact.IsIpv4)
    (short : forall bytes, (Message.response (replyOf node stored)).toBytes Bencode.textCodec = some bytes ->
      bytes.length ≤ MAX_DATAGRAM) :
    Exists fun answer : ServedAnswer MemoryTree config.method node (responseOf node stored) =>
      answer.table = tableOf node stored := by
  have encodable : (Message.response (replyOf node stored)).Encodable :=
    ⟨fun addr same => by cases same; rfl, ipv4⟩
  have handled : (serverOf node).handleQuery (stateOf node stored) arrival =
      some (stateOf node stored, .ok (replyOf node stored)) := by
    change (if invalid.id = node.id then _ else Option.map _ (Bucket.lookup (tableOf node stored) config.target)) = _
    rw [if_neg foreign, found]
    rfl
  rcases Message.receive_encodable Bencode.textCodec encodable node.addr with ⟨bytes, written, read⟩
  exact ⟨⟨⟨serverOf node, stateOf node stored, arrival, _, _, bytes, rfl, rfl, rfl, handled, written⟩,
    short bytes written, read⟩, rfl⟩

/-- Two members, of which one knows the other. -/
def pair : Neighbourhood config where
  members := fun member => member = node 0 ∨ member = node 1
  others := ∅
  closest := node 0
  valid := neighbourhood.valid
  oneAddress := fun member isMember other known same =>
    neighbourhood.oneAddress member isMember other
      (known.imp_right fun inside => absurd inside (Finset.notMem_empty _)) same
  closest_member := neighbourhood.closest_member
  closest_le := neighbourhood.closest_le
  few := Neighbourhood.few_of_none

def router : Router := ⟨tableOf invalid [node 1], []⟩

def network : List Completion := [⟨0, none⟩, ⟨0, some (responseOf (node 1) [node 0])⟩, ⟨0, some (responseOf (node 0) [])⟩]

theorem foreign_one : invalid.id ≠ (node 1).id := by
  decide +kernel

theorem foreign_zero : invalid.id ≠ (node 0).id := by
  decide +kernel

theorem short_one : forall bytes, (Message.response (replyOf (node 1) [node 0])).toBytes Bencode.textCodec = some bytes ->
    bytes.length ≤ MAX_DATAGRAM := by
  intro bytes written
  cases written
  decide +kernel

theorem short_zero : forall bytes, (Message.response (replyOf (node 0) [])).toBytes Bencode.textCodec = some bytes ->
    bytes.length ≤ MAX_DATAGRAM := by
  intro bytes written
  cases written
  decide +kernel

theorem connected_one : pair.Connected (node 1) (tableOf (node 1) [node 0]) where
  live := .last ⟨rfl, rfl, rfl, by decide, by decide,
    fun _ _ => sharesPrefix_zero _ _, List.nodup_singleton _⟩
  known := fun stored inside => Or.inl (Or.inl (List.mem_singleton.mp inside))
  closer := Or.inr ⟨node 0, List.mem_singleton.mpr rfl, Or.inl rfl, by decide +kernel,
    Or.inr fun other inside => Or.inl (List.mem_singleton.mp inside)⟩

theorem connected_zero : pair.Connected (node 0) (tableOf (node 0) []) where
  live := .root _ _
  known := fun _ inside => absurd inside List.not_mem_nil
  closer := Or.inl rfl

end SampleSearch

open SampleSearch in
theorem find_nodes_reaches_closest_of_pair :
    router.findNNodes config.crypto config.chance .min 255 network = some [node 0, node 1] ∧
      Exists fun before => Exists fun after => [node 0, node 1] = before ++ node 0 :: after ∧
        forall node, node ∈ before -> node ∈ pair.others := by
  have returned : router.findNNodes config.crypto config.chance .min 255 network = some [node 0, node 1] := by
    decide +kernel
  have looked : router.lookup .min = some [node 1] := by
    decide +kernel
  have taken : forall index, index < 3 ->
      (PartialRun.run (Search.step config) (Search.start config.target [node 1]) (network.take index)).map
        (fun search => search.tasks) =
      [[.start [node 1]], [.sendFind (node 1)], [.sendFind (node 0)]][index]? := by
    decide +kernel
  refine ⟨returned, find_nodes_reaches_closest MemoryTree router config.crypto config.chance .min 255 network pair
    [node 1] _ looked returned (node 1) List.mem_cons_self (Or.inr rfl) (by decide) ?_⟩
  change PartialRun.Permitted (Search.step config) (pair.Serves fun _ _ (_ : ServerState MemoryTree) => True)
    (Search.start config.target [node 1]) network
  apply PartialRun.Permitted.of_at
  intro index completion middle there reached task own
  have less : index < 3 := (List.getElem?_eq_some_iff.mp there).1
  have tasks := taken index less
  rw [reached, Option.map_some] at tasks
  rcases index with _ | _ | _ | index
  · cases there
    rw [Option.some.inj tasks] at own
    cases own
    intro stored inside
    exact Or.inl (Or.inr (List.mem_singleton.mp inside))
  · cases there
    rw [Option.some.inj tasks] at own
    cases own
    have found : Bucket.lookup (tableOf (node 1) [node 0]) config.target = some [node 0] := by decide +kernel
    rcases served foreign_one found (by decide +kernel) short_one with ⟨answer, table⟩
    exact ⟨fun _ => ⟨_, rfl, answer, table ▸ connected_one, trivial⟩, fun stranger => absurd (Or.inr rfl) stranger⟩
  · cases there
    rw [Option.some.inj tasks] at own
    cases own
    have found : Bucket.lookup (tableOf (node 0) []) config.target = some [] := by decide +kernel
    rcases served foreign_zero found (fun _ inside => absurd inside List.not_mem_nil) short_zero with ⟨answer, table⟩
    exact ⟨fun _ => ⟨_, rfl, answer, table ▸ connected_zero, trivial⟩, fun stranger => absurd (Or.inl rfl) stranger⟩
  · omega

/-- A search for peers among servers with connected tables returns every address that
the closest member has recorded for the target whenever it answers. -/
theorem find_peers_reaches_recorded (Store : Type) [PeerTree Store] (router : Router) (config : SearchConfig)
    (forPeers : config.findPeers = true) (k : UInt8) (network : List Completion) (neighbourhood : Neighbourhood config)
    (start : List NodeInfo) (found : Found) (looked : router.lookup config.target = some start)
    (returned : router.find config k network = some found) (member : NodeInfo) (among : member ∈ start)
    (isMember : neighbourhood.members member) (addr : SocketAddr)
    (served : PartialRun.Permitted (Search.step config)
      (neighbourhood.Serves fun node server (state : ServerState Store) => node = neighbourhood.closest ->
        Exists fun arrivals => server.Stores arrivals state.peers ∧ addr ∈ server.peersOf arrivals config.target)
      (Search.start config.target start) network) :
    Exists fun peers => found = .peers peers ∧ addr ∈ peers := by
  rw [Router.find, looked, Option.bind_some] at returned
  rcases findNStartingAt_eq_some returned with ⟨final, ran, ended, rfl⟩
  have guided := Search.Guided.run among isMember (served.imp fun _ _ serves => serves.helps) ran
  have live := guided.closest_live ended
  have answered := guided.answered_member ended (Search.mem_live.mp live).1 neighbourhood.closest_member
  rcases Search.ended_of_answered ran answered with ⟨outcome, asked⟩
  have received : Exists fun peers => Search.ReceivedPeers config start network peers ∧ addr ∈ peers := by
    rcases asked with ⟨before, task, after, middle, rfl, there, own⟩
    rcases (served.at there _ own).1 neighbourhood.closest_member with
      ⟨response, rfl, answer, connected, recorded⟩
    rcases recorded rfl with ⟨arrivals, stores, inside⟩
    rcases answer.peers forPeers ⟨_, _, connected.live⟩ stores inside with ⟨peers, token, nodes, kind, member⟩
    exact ⟨peers, ⟨_, response, token, nodes, ⟨before, task, after, middle, rfl, there, own⟩, kind⟩, member⟩
  have member := (Search.mem_peers_run ran).mpr ⟨forPeers, received⟩
  exact ⟨final.peers, (Search.found_eq_peers_iff final k).mpr ⟨⟨addr, member⟩, rfl⟩, member⟩

namespace Sample

def peerConfig : SearchConfig := ⟨peerServer.crypto, ⟨0, 0, 0, 0, .reservoir fun _ => 0⟩, U160.min, true⟩

/-- A query of a read-only node. -/
def reader (method : QueryMethod) : Arrival where
  query :=
    { method := method
      base :=
        { origin := .remote announcer, destination := .me, requestorAddr := none, transactionId := [0, 1]
          readOnly := true } }
  chance := peerConfig.chance

def announcement : Arrival := reader (.announcePeer U160.min 6882 announcerToken)

/-- The announcement is recorded. -/
def recording : ServerState MemoryTree where
  router := Router.new peerServer.me
  transaction := 0
  peers := (∅ : MemoryTree).insert U160.min.toBeBytes
    (peerServer.recordOf (peerServer.peersOf ([] ++ [announcement]) U160.min))

theorem accepts_announcement : peerServer.accepts announcement = some (U160.min, .v4 0x01010101 6882) := by
  decide +kernel

theorem stores_recording : peerServer.Stores [announcement] recording.peers :=
  peerServer.stores_empty.announce accepts_announcement

theorem recorded_peer : SocketAddr.v4 0x01010101 6882 ∈ peerServer.peersOf [announcement] U160.min :=
  Server.mem_peersOf.mpr ⟨announcement, List.mem_cons_self, accepts_announcement⟩

/-- Whatever the server answers without an error can be written: its table is empty. -/
theorem served_of {method : QueryMethod} (lists : peerServer.listed recording (reader method) = some [])
    (succeeds : forall after result, peerServer.handleQuery recording (reader method) = some (after, result) ->
      Exists fun reply => result = .ok reply) :
    Exists fun reply : ServedReply MemoryTree method peerServer.me =>
      reply.server = peerServer ∧ reply.state = recording ∧ reply.arrival = reader method := by
  have sound := (Router.reachable_new peerServer.me).sound
  rcases Server.handleQuery_spec rfl stores_recording sound (reader method) with ⟨after, result, handled, _⟩
  rcases succeeds after result handled with ⟨reply, rfl⟩
  have ipv4 : forall nodes, peerServer.listed recording (reader method) = some nodes ->
      forall node, node ∈ nodes -> node.IsIpv4 := by
    intro nodes listed
    cases lists.symm.trans listed
    exact fun _ member => absurd member List.not_mem_nil
  rcases Option.isSome_iff_exists.mp ((Server.reply_written_iff handled).mpr ipv4) with ⟨bytes, written⟩
  exact ⟨⟨peerServer, recording, _, after, reply, bytes, rfl, rfl, rfl, handled, written⟩, rfl, rfl, rfl⟩

theorem foreign_announcer : announcer.id ≠ peerServer.me.id := by
  decide

/-- The bytes that the server answers with. -/
def answerBytes (method : QueryMethod) : Option Bytes :=
  (peerServer.handleQuery recording (reader method)).bind fun handled =>
    (QueryResult.intoMessage handled.2).toBytes peerServer.bencode

theorem short_answer :
    ((answerBytes peerConfig.method).map fun bytes => decide (bytes.length ≤ MAX_DATAGRAM)) = some true := by
  decide +kernel

theorem served : Exists fun response =>
    Exists fun answer : ServedAnswer MemoryTree peerConfig.method peerServer.me response =>
      answer.server = peerServer ∧ answer.state = recording := by
  have written : Exists fun reply : ServedReply MemoryTree peerConfig.method peerServer.me =>
      reply.server = peerServer ∧ reply.state = recording ∧ reply.arrival = reader peerConfig.method := by
    refine served_of rfl fun after result handled => ?_
    rcases Server.handleQuery_spec rfl stores_recording (Router.reachable_new peerServer.me).sound
      (reader (.getPeers U160.min)) with ⟨other, same, handledToo, _, _, answers⟩
    cases handled.symm.trans handledToo
    rcases answers.getPeers U160.min rfl foreign_announcer rfl with ⟨reply, nodes, token, rfl, _⟩
    exact ⟨reply, rfl⟩
  rcases written with ⟨reply, server, state, arrival⟩
  rcases reply.isResponse with ⟨response, read⟩
  have handled := reply.handled
  have written := reply.written
  rw [server, state, arrival] at handled
  rw [server] at written
  have size := short_answer
  rw [answerBytes, handled, Option.bind_some, show (QueryResult.intoMessage (.ok reply.reply)).toBytes _ = _ from written,
    Option.map_some, Option.some.injEq, decide_eq_true_iff] at size
  exact ⟨response, ⟨reply, size, read⟩, server, state⟩

/-- The server is the only member. -/
def alone : Neighbourhood peerConfig where
  members := fun member => member = peerServer.me
  others := ∅
  closest := peerServer.me
  valid := fun member same => same ▸ by decide +kernel
  oneAddress := by
    rintro member rfl node (rfl | inside) _
    · rfl
    · exact absurd inside (Finset.notMem_empty _)
  closest_member := rfl
  closest_le := fun _ same => same ▸ le_refl _
  few := Neighbourhood.few_of_none

theorem connected_alone : alone.Connected peerServer.me recording.router.buckets where
  live := .root _ _
  known := fun _ inside => absurd inside List.not_mem_nil
  closer := Or.inl rfl

end Sample

open Sample in
/-- The table of the searching node holds the server. -/
theorem find_peers_reaches_recorded_of_server : Exists fun response => Exists fun peers =>
    Router.find ⟨SampleSearch.tableOf SampleSearch.invalid [peerServer.me], []⟩ peerConfig 8
      [⟨0, none⟩, ⟨0, some response⟩] = some (.peers peers) ∧ SocketAddr.v4 0x01010101 6882 ∈ peers := by
  rcases served with ⟨response, answer, server, state⟩
  have looked : Router.lookup ⟨SampleSearch.tableOf SampleSearch.invalid [peerServer.me], []⟩ peerConfig.target =
      some [peerServer.me] := by
    decide +kernel
  have first : (Search.step peerConfig (Search.start U160.min [peerServer.me]) ⟨0, none⟩).map (fun search => search.tasks) =
      some [.sendFind peerServer.me] := by
    decide +kernel
  rcases Option.map_eq_some_iff.mp first with ⟨middle, started, tasks⟩
  have connected : alone.Connected peerServer.me answer.table := by
    rw [ServedReply.table, state]
    exact connected_alone
  have nothing : Search.reportedBy (peerConfig.result (some response) (.sendFind peerServer.me)) = [] := by
    rcases answer.reported peerServer.me with ⟨nodes, found, reported, _⟩
    rw [ServedReply.table, state] at found
    cases found
    exact reported
  have served : PartialRun.Permitted (Search.step peerConfig)
      (alone.Serves fun node server (state : ServerState MemoryTree) => node = alone.closest ->
        Exists fun arrivals => server.Stores arrivals state.peers ∧
          SocketAddr.v4 0x01010101 6882 ∈ server.peersOf arrivals peerConfig.target)
      (Search.start U160.min [peerServer.me]) [⟨0, none⟩, ⟨0, some response⟩] := by
    refine ⟨fun task own => ?_, fun next taken => ⟨fun task own => ?_, fun _ _ => trivial⟩⟩
    · cases own
      exact fun node inside => Or.inl (List.mem_singleton.mp inside)
    · rw [started, Option.some.injEq] at taken
      rw [<- taken, tasks] at own
      cases own
      refine ⟨fun _ => ⟨response, rfl, answer, connected, fun _ => ⟨[announcement], ?_, ?_⟩⟩,
        fun stranger => absurd rfl stranger⟩
      · rw [server, state]
        exact stores_recording
      · rw [server]
        exact recorded_peer
  have ends : Exists fun found =>
      findNStartingAt peerConfig 8 [peerServer.me] [⟨0, none⟩, ⟨0, some response⟩] = some found := by
    have inside : 0 < middle.tasks.length := by
      rw [tasks]
      decide
    rcases Option.isSome_iff_exists.mp (Search.step_of_task peerConfig middle 0 inside (some response)) with
      ⟨final, stepped⟩
    refine Option.isSome_iff_exists.mp (findNStartingAt_isSome.mpr ⟨final, ?_, ?_⟩)
    · exact PartialRun.run_cons_eq_some.mpr ⟨middle, started, PartialRun.run_cons_eq_some.mpr ⟨final, stepped, rfl⟩⟩
    · rcases Search.step_eq_some stepped with ⟨task, own, rfl⟩
      rw [tasks] at own
      cases own
      rw [nothing, List.foldl_nil, (Search.finish_fields _ _ _ _).2.2.2.1, tasks]
      rfl
  rcases ends with ⟨found, returned⟩
  rcases find_peers_reaches_recorded MemoryTree _ peerConfig rfl 8 [⟨0, none⟩, ⟨0, some response⟩] alone
    [peerServer.me] found looked (by rw [Router.find, looked]; exact returned) peerServer.me List.mem_cons_self rfl _
    served with ⟨peers, rfl, member⟩
  exact ⟨response, peers, by rw [Router.find, looked]; exact returned, member⟩

end DhtExplorer
