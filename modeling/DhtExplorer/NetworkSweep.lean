import DhtExplorer.NetworkSearch
import DhtExplorer.NodeSystem
import DhtExplorer.SampleReply
import DhtExplorer.SweepCoverage

namespace DhtExplorer

/-!
# A sweep among servers

The nodes that the sweep asks run the same program.  The target of a query is the id
of the asked node with its lower bits set, and a lookup never leaves out a node that
shares more bits with the target than the asked node does.  So the sweep gets from
each server to what its table holds there, and collects what the servers on the way
have recorded.  A server that has recorded a few hashes less than it samples at most
sends them all, in a reply that fits in a datagram.

The sweeping node is read only, so it enters no table.
-/

variable {Store : Type} [PeerTree Store]

/-! ## One answer -/

/-- A sampling answer lists what the lookup returns, and all hashes if they fit. -/
theorem ServedAnswer.samples {target : U160} {node : NodeInfo} {response : Response}
    (answer : ServedAnswer Store (.sampleInfohashes target) node response) {arrivals : List Arrival}
    (stores : answer.server.Stores arrivals answer.state.peers)
    (few : (answer.server.announcedHashes arrivals).card ≤ Server.maxSamples) :
    Exists fun nodes => Exists fun samples => Exists fun available => Exists fun interval =>
      Bucket.lookup answer.table target = some nodes ∧ response.kind = .samples nodes samples available interval ∧
      forall infoHash, infoHash ∈ answer.server.announcedHashes arrivals -> infoHash ∈ samples := by
  have answered := answer.answered
  rw [Server.answer, answer.method_eq] at answered
  rcases Option.map_eq_some_iff.mp answered with ⟨result, handled, same⟩
  rw [(Prod.mk.inj same).2, Server.handleSample] at handled
  cases works : answer.arrival.dbFails with
  | true =>
      rw [works, if_pos rfl] at handled
      cases handled
  | false =>
      rw [works, if_neg Bool.false_ne_true] at handled
      rcases Option.map_eq_some_iff.mp handled with ⟨nodes, found, equal⟩
      have kind := answer.received_kind
      rw [<- Except.ok.inj equal] at kind
      refine ⟨nodes, _, _, _, found, kind, fun infoHash announced => ?_⟩
      rcases stores.read_keys with ⟨hashes, read, unique, members⟩
      have fits : hashes.length ≤ Server.maxSamples := by
        rw [<- List.toFinset_card_of_nodup unique]
        refine (Finset.card_le_card fun infoHash inside => ?_).trans few
        exact (members infoHash).mp (List.mem_toFinset.mp inside)
      rw [read]
      exact Sampler.mem_of_few fits ((members infoHash).mpr announced)

/-! ## The size of an answer -/

/-- The server and the asking node run this program on IPv4: ids of transactions have two
bytes, and bencode is written as it is specified. -/
structure ServedReply.Ordinary {method : QueryMethod} {node : NodeInfo} (reply : ServedReply Store method node) : Prop where
  codec : reply.server.bencode.toVec = Bencode.textCodec.toVec
  transactionId : reply.arrival.query.base.transactionId.length ≤ 2
  sender : reply.arrival.query.base.origin.toNodeInfo.IsIpv4
  table : forall stored, stored ∈ Bucket.stored reply.table -> stored.IsIpv4

/-- No key counts twice. -/
theorem Server.Stores.hashCount_le {server : Server} {arrivals : List Arrival} {peers : Store}
    (stores : server.Stores arrivals peers) : hashCount peers ≤ (server.announcedHashes arrivals).card := by
  rw [hashCount, <- stores.size_eq, <- KeyStore.length_keys]
  exact List.countP_le_length

/-- Up to 3258 hashes fit in a datagram, with the neighbourhood and the envelope. -/
theorem ServedReply.samples_fit {target : U160} {node : NodeInfo}
    {reply : ServedReply Store (.sampleInfohashes target) node} (ordinary : reply.Ordinary) {own : U160}
    (live : Live own K_SIZE 0 reply.table) {arrivals : List Arrival}
    (stores : reply.server.Stores arrivals reply.state.peers)
    (few : (reply.server.announcedHashes arrivals).card ≤ 3258) : reply.bytes.length ≤ MAX_DATAGRAM := by
  have answered := reply.answered
  rw [Server.answer, reply.method_eq] at answered
  rcases Option.map_eq_some_iff.mp answered with ⟨result, handled, same⟩
  rw [(Prod.mk.inj same).2] at handled
  have written : (Message.response reply.reply).toBytes Bencode.textCodec = some reply.bytes := by
    rw [Message.toBytes, <- ordinary.codec]
    exact reply.written
  have fits : SampleFits reply.state reply.arrival target :=
    sampleFits_of_few_hashes live ordinary.transactionId (stores.hashCount_le.trans few)
  rcases Server.handleSample_size ordinary.table ordinary.sender handled with ⟨bytes, writtenToo, size⟩
  cases written.symm.trans writtenToo
  rcases size with ⟨fails, size⟩ | ⟨works, nodes, found, size⟩
  · have short := ordinary.transactionId
    rw [size, stringSize_small (by omega), MAX_DATAGRAM]
    omega
  · rw [size]
    rcases fits with fails | fits
    · rw [works] at fails
      cases fails
    · exact fits nodes found

/-! ## Servers with tables -/

namespace Keyspace

variable (keyspace : Keyspace)

/-- The table of a member is well placed and holds the nodes that it names.  These share
more bits with the target, or the table has a single bucket.  What the member holds is
recorded, and there are not too many hashes for one datagram. -/
structure Recorded (node : NodeInfo) (target : U160) (table : Chain) (server : Server) (peers : Store) : Prop where
  live : Live node.id K_SIZE 0 table
  stored : forall higher, keyspace.names node higher -> higher ∈ Bucket.stored table
  listed : forall higher, keyspace.names node higher -> SharesMore node.id target higher.id ∨ table.length = 1
  recorded : Exists fun arrivals => server.Stores arrivals peers ∧
    (server.announcedHashes arrivals).card ≤ 3258 ∧
    forall hash, keyspace.holds node hash -> hash ∈ server.announcedHashes arrivals

/-- A member answers the sampling query from its table and its store, and the reply
arrives if it fits in a datagram. -/
def Sampled (Store : Type) [PeerTree Store] (node : NodeInfo) (sampling : Option Response) : Prop :=
  Exists fun reply : ServedReply Store (.sampleInfohashes (node.id.or NEXT_HIGHEST)) node =>
    reply.Ordinary ∧ keyspace.Recorded node (node.id.or NEXT_HIGHEST) reply.table reply.server reply.state.peers ∧
    (reply.bytes.length ≤ MAX_DATAGRAM -> Exists fun response => sampling = some response ∧
      Message.receive reply.server.bencode reply.bytes node.addr = .ok (.response response))

/-- Members answer as servers, and nobody reports a false member. -/
def Serves (Store : Type) [PeerTree Store] (crypto : Crypto) (chance : Chance) (sweep : Sweep) (action : SweepAction) :
    Prop :=
  Sweep.Reports crypto chance keyspace.Genuine sweep action ∧
    keyspace.Heeds (fun node sampling _ => keyspace.Sampled Store node sampling) sweep action

variable {keyspace} {crypto : Crypto} {chance : Chance} {node : NodeInfo} {target : U160} {table : Chain}
  {server : Server} {peers : Store}

/-- The lookup of the target lists the nodes that the member names. -/
theorem Recorded.lookup (recorded : keyspace.Recorded node target table server peers) {nodes : List NodeInfo}
    (found : Bucket.lookup table target = some nodes) {higher : NodeInfo} (named : keyspace.names node higher) :
    higher ∈ nodes := by
  have stored := recorded.stored higher named
  rcases recorded.listed higher named with more | single
  · rcases recorded.live.mem_lookup (sharesPrefix_zero _ _) stored more with ⟨same, foundToo, member⟩
    rw [found, Option.some.injEq] at foundToo
    exact foundToo ▸ member
  · rcases List.length_eq_one_iff.mp single with ⟨bucket, rfl⟩
    cases recorded.live with
    | last placed =>
        rw [Bucket.stored_cons, Bucket.stored_nil, List.append_nil] at stored
        rw [lookup_last placed, Option.some.injEq] at found
        exact found ▸ stored
    | split placed differs behind => exact absurd rfl behind.nonempty

theorem Sampled.answers {sampling finding : Option Response} (sampled : keyspace.Sampled Store node sampling) :
    keyspace.Answers node sampling finding := by
  rcases sampled with ⟨reply, ordinary, recorded, arrives⟩
  rcases recorded.recorded with ⟨arrivals, stores, few, announced⟩
  have fits := reply.samples_fit ordinary recorded.live stores few
  rcases arrives fits with ⟨response, rfl, read⟩
  rcases ServedAnswer.samples ⟨reply, fits, read⟩ stores (few.trans (by decide)) with
    ⟨nodes, samples, available, interval, found, kind, listed⟩
  have result : queryOne node (some response) finding = (node.id, nodes, some samples) := by
    rw [queryOne, Option.map_some, kind]
  rw [Answers, result]
  refine ⟨fun higher leads => recorded.lookup found leads.2.1, fun hash holds => ?_⟩
  exact listed hash (announced hash holds)

theorem Serves.tells {sweep : Sweep} {action : SweepAction} (serves : keyspace.Serves Store crypto chance sweep action) :
    keyspace.Tells crypto chance sweep action := by
  refine ⟨serves.1, ?_⟩
  cases action with
  | finish task sampling finding => exact fun node own isMember => (serves.2 node own isMember).answers
  | loop => trivial
  | backfill network => trivial

end Keyspace

/-- A sweep among servers that returns with an empty queue has sent on every hash that
is recorded at a server that the first nodes lead up to. -/
theorem sweep_collects (Store : Type) [PeerTree Store] (keyspace : Keyspace) (crypto : Crypto) (chance : Chance)
    (lowest highest : List NodeInfo)
    (genuine : forall node, node ∈ lowest ++ highest -> keyspace.Genuine node) (actions : List SweepAction)
    (final : Sweep) (ran : Sweep.run crypto chance lowest highest actions = some final)
    (served : PartialRun.Permitted (Sweep.step crypto chance) (keyspace.Serves Store crypto chance)
      (Sweep.start lowest highest) actions)
    (returned : final.Returned) (drained : final.toSend.items = []) (first member : NodeInfo)
    (among : first ∈ lowest ++ highest) (isMember : keyspace.members first)
    (leadsUp : Relation.ReflTransGen keyspace.Leads first member) (hash : U160) (holds : keyspace.holds member hash) :
    hash ∈ final.tx := by
  have covering := Sweep.covering_run genuine ran (served.imp fun _ _ serves => serves.tells)
  have reached := covering.reached ran returned drained among isMember leadsUp
  exact covering.sent member reached.2 reached.1 hash holds

/-- After the last answer, which names no nodes, the sweep returns. -/
theorem Sweep.last_round {sweep : Sweep} {task : NodeInfo} {sampling finding : Option Response} {target : U160}
    {samples : Option (List U160)} (crypto : Crypto) (chance : Chance) (waiting : sweep.loop = .waiting)
    (tasks : sweep.tasks = [task]) (empty : sweep.toSend.items = [])
    (told : queryOne task sampling finding = (target, [], samples)) :
    Exists fun next =>
      PartialRun.run (step crypto chance) sweep [.finish 0 sampling finding, .loop, .loop, .loop] = some next ∧
      next.Returned ∧ next.toSend.items = [] := by
  have ended : step crypto chance sweep (.finish 0 sampling finding) =
      some { sweep with
        tasks := [], asked := sweep.asked ++ [task], tx := sweep.tx ++ samples.getD [], loop := .received target [] } := by
    change sweep.finishStep 0 sampling finding = _
    rw [finishStep, waiting, tasks]
    simp only [List.getElem?_cons_zero, Option.map_some, told]
    rfl
  have near : sweep.toSend.largeGap target = false := by
    rw [SendQueue.largeGap, empty]
    rfl
  have stays : sweep.toSend.popFirst = none := by
    cases popped : sweep.toSend.popFirst with
    | none => rfl
    | some pair =>
        have items := OrderedSet.popFirst_eq_some popped
        rw [empty] at items
        cases items
  refine ⟨{ sweep with tasks := [], asked := sweep.asked ++ [task], tx := sweep.tx ++ samples.getD [] }, ?_, ⟨waiting, rfl⟩,
    empty⟩
  rw [PartialRun.run, ended, Option.bind_some]
  change (if sweep.toSend.largeGap target && sweep.isFinished then _ else _ : Option Sweep).bind _ = _
  rw [near, Bool.false_and, if_neg Bool.false_ne_true, Option.bind_some]
  change some { queryNext _ with loop := LoopStage.waiting } = _
  rw [queryNext]
  simp only [stays, waiting]

namespace Sample

abbrev sampling : QueryMethod := .sampleInfohashes (peerServer.me.id.or NEXT_HIGHEST)

theorem served_sampling : Exists fun reply : ServedReply MemoryTree sampling peerServer.me =>
    reply.server = peerServer ∧ reply.state = recording ∧ reply.arrival = reader sampling := by
  refine served_of rfl fun after result handled => ?_
  rcases Server.handleQuery_spec rfl stores_recording (Router.reachable_new peerServer.me).sound (reader sampling) with
    ⟨other, same, handledToo, _, _, answers⟩
  cases handled.symm.trans handledToo
  rcases answers.samples _ rfl foreign_announcer rfl with ⟨reply, nodes, samples, rfl, _⟩
  exact ⟨reply, rfl⟩

/-- The server is the only member, and holds the hash that it has recorded. -/
def keyspace : Keyspace where
  members := fun member => member = peerServer.me
  names := fun _ _ => False
  holds := fun _ hash => hash = U160.min

theorem recorded_keyspace : keyspace.Recorded peerServer.me (peerServer.me.id.or NEXT_HIGHEST) recording.router.buckets
    peerServer recording.peers where
  live := .root _ _
  stored := fun _ named => named.elim
  listed := fun _ named => named.elim
  recorded := by
    refine ⟨[announcement], stores_recording, ?_, ?_⟩
    · exact (List.toFinset_card_le _).trans (by decide +kernel)
    · rintro hash rfl
      exact Server.mem_announcedHashes.mpr (List.ne_nil_of_mem recorded_peer)

end Sample

open Sample in
/-- The first search of the sweep has found the server. -/
theorem sweep_collects_recorded : Exists fun response => Exists fun final =>
    Sweep.run peerConfig.crypto peerConfig.chance [peerServer.me] [] [.finish 0 (some response) none, .loop, .loop, .loop] =
      some final ∧ U160.min ∈ final.tx := by
  rcases served_sampling with ⟨reply, server, state, arrival⟩
  rcases reply.isResponse with ⟨response, read⟩
  have ordinary : reply.Ordinary := by
    refine ⟨by rw [server]; rfl, by rw [arrival]; decide, by rw [arrival]; trivial, fun stored member => ?_⟩
    rw [ServedReply.table, state] at member
    cases member
  have recorded : keyspace.Recorded peerServer.me (peerServer.me.id.or NEXT_HIGHEST) reply.table reply.server
      reply.state.peers := by
    rw [ServedReply.table, server, state]
    exact recorded_keyspace
  have told : Exists fun samples => queryOne peerServer.me (some response) none = (peerServer.me.id, [], samples) := by
    rcases recorded.recorded with ⟨arrivals, stores, few, _⟩
    have fits := reply.samples_fit ordinary recorded.live stores few
    rcases ServedAnswer.samples ⟨reply, fits, read⟩ stores (few.trans (by decide)) with
      ⟨nodes, samples, available, interval, found, kind, _⟩
    rw [ServedReply.table, state] at found
    cases found
    refine ⟨some samples, ?_⟩
    rw [queryOne, Option.map_some, kind]
    rfl
  rcases told with ⟨samples, told⟩
  have first : ((Sweep.start [peerServer.me] []).loop, (Sweep.start [peerServer.me] []).tasks,
      (Sweep.start [peerServer.me] []).toSend.items) = (.waiting, [peerServer.me], []) := by
    decide +kernel
  rcases Prod.mk.inj first with ⟨waiting, rest⟩
  rcases Prod.mk.inj rest with ⟨tasks, empty⟩
  rcases Sweep.last_round peerConfig.crypto peerConfig.chance waiting tasks empty told with
    ⟨final, ran, returned, drained⟩
  have genuine : forall node, node ∈ [peerServer.me] ++ [] -> keyspace.Genuine node := by
    rintro node inside member rfl _
    exact List.mem_singleton.mp inside
  have served : PartialRun.Permitted (Sweep.step peerConfig.crypto peerConfig.chance)
      (keyspace.Serves MemoryTree peerConfig.crypto peerConfig.chance) (Sweep.start [peerServer.me] [])
      [.finish 0 (some response) none, .loop, .loop, .loop] := by
    have looping : forall sweep, keyspace.Serves MemoryTree peerConfig.crypto peerConfig.chance sweep .loop :=
      fun _ => ⟨trivial, trivial⟩
    refine ⟨⟨fun node own reported inside => ?_, fun node own isMember => ?_⟩, fun _ _ =>
      ⟨looping _, fun _ _ => ⟨looping _, fun _ _ => ⟨looping _, fun _ _ => trivial⟩⟩⟩⟩
    · rw [tasks] at own
      cases own
      rw [told] at inside
      exact absurd inside List.not_mem_nil
    · rw [tasks] at own
      cases own
      exact ⟨reply, ordinary, recorded, fun _ => ⟨response, rfl, read⟩⟩
  exact ⟨response, final, ran, sweep_collects MemoryTree keyspace peerConfig.crypto peerConfig.chance [peerServer.me] []
    genuine _ final ran served returned drained peerServer.me peerServer.me List.mem_cons_self rfl .refl U160.min rfl⟩

end DhtExplorer
