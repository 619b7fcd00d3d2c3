import DhtExplorer.AnnounceRound
import DhtExplorer.MessageCodec
import DhtExplorer.NodeSystem
import DhtExplorer.ReplyWriting

namespace DhtExplorer

/-!
# Where the contacts of a node come from

Answers are full of contacts that nobody has checked.  The routing table takes none
of them: whatever happens in whatever order, a contact that the table did not hold
at the start has sent a packet from its own address, which was either a query of a
node that is not read only, or the answer to a query of this node.

Along with this, nothing that the node runs panics but the writer of a reply, on an
IPv6 contact in the neighbourhood that the reply lists.
-/

/-- The message came in a datagram of the run. -/
def Node.Hears (self : Node) (events : List NodeEvent) (message : Message) : Prop :=
  Exists fun datagram => NodeEvent.datagram datagram ∈ events ∧
    Message.receive self.messenger.bencode datagram.bytes datagram.source = .ok message

/-- The call returned the response. -/
def ServiceState.Returned (state : ServiceState) (response : Response) : Prop :=
  Exists fun index : Nat => Exists fun call => state.calls[index]? = some call ∧
    Call.phase call = .returned (.received (.ok response))

/-- The contact sent a packet that shows its id: a query that asks to be remembered,
or a response that a call of the node returned. -/
def Node.Introduces (self : Node) (events : List NodeEvent) (messenger : ServiceState) (contact : NodeInfo) : Prop :=
  Exists fun message => self.Hears events message ∧ message.base.origin.toNodeInfo = contact ∧
    ((Exists fun query => message = .query query ∧ query.base.readOnly = false ∧ self.messenger.queriesInbound = true) ∨
      Exists fun response => message = .response response ∧ messenger.Returned response)

variable {self : Node} {events : List NodeEvent}

theorem Node.Hears.append {message : Message} (hears : self.Hears events message) (later : List NodeEvent) :
    self.Hears (events ++ later) message := by
  rcases hears with ⟨datagram, member, read⟩
  exact ⟨datagram, List.mem_append_left _ member, read⟩

theorem Node.Introduces.mono {messenger next : ServiceState} {contact : NodeInfo}
    (introduces : self.Introduces events messenger contact) (later : List NodeEvent)
    (kept : forall response, messenger.Returned response -> next.Returned response) :
    self.Introduces (events ++ later) next contact := by
  rcases introduces with ⟨message, hears, same, query | ⟨response, isResponse, returned⟩⟩
  · exact ⟨message, hears.append later, same, Or.inl query⟩
  · exact ⟨message, hears.append later, same, Or.inr ⟨response, isResponse, kept response returned⟩⟩

/-- A contact is known under the address that its packet came from. -/
theorem Node.Hears.source {message : Message} (hears : self.Hears events message) :
    Exists fun datagram => NodeEvent.datagram datagram ∈ events ∧
      Message.receive self.messenger.bencode datagram.bytes datagram.source = .ok message ∧
      message.base.origin.toNodeInfo.addr = datagram.source := by
  rcases hears with ⟨datagram, member, read⟩
  refine ⟨datagram, member, read, ?_⟩
  have addrEq : message.base.origin.toNodeInfo.addr = message.base.origin.addr := by
    cases message.base.origin <;> rfl
  cases form : Message.wireForm self.messenger.bencode datagram.bytes with
  | none =>
      rw [Message.receive_of_no_wireForm form] at read
      cases read
  | some kmsg =>
      rw [Message.receive_of_wireForm form] at read
      cases accepted : Message.fromKmsg datagram.source kmsg with
      | error cause =>
          rw [accepted] at read
          cases read
      | ok message' =>
          rw [accepted] at read
          cases read
          exact addrEq.trans (Message.base_fromKmsg accepted).2

theorem Node.isSome_returnResult {Store : Type} (self : Node) (state : NodeState Store) (result : QueryResult) :
    (self.returnResult state result).isSome = true := by
  change Option.isSome (Option.map _ (self.messenger.step state.messenger (.receive result))) = true
  rw [Option.isSome_map]
  unfold Service.step
  dsimp only
  split <;> rfl

variable {Store : Type} [PeerTree Store]

/-! ## What one datagram changes -/

/-- A datagram changes nothing, or it is a query that was handled, or it was handed
to the calls. -/
theorem Node.recv_next {state next : NodeState Store} {datagram : Datagram}
    (received : (self.recv state datagram).next = some next) :
    next = state ∨
    (Exists fun query => Exists fun server => Exists fun result =>
      Message.receive self.messenger.bencode datagram.bytes datagram.source = .ok (.query query) ∧
      self.messenger.queriesInbound = true ∧
      self.server.handleQuery state.server ⟨query, datagram.chance, datagram.dbFails⟩ = some (server, result) ∧
      next = { state with server := server }) ∨
    (Exists fun result =>
      Message.receive self.messenger.bencode datagram.bytes datagram.source = .ok (QueryResult.intoMessage result) ∧
      self.step state (.messenger (.receive result)) = some next) := by
  unfold recv at received
  split at received
  · rename_i message read
    cases message with
    | query query =>
        unfold handleReceived at received
        dsimp only at received
        split at received
        · rename_i answers
          split at received
          · rename_i server result handled
            cases received
            exact Or.inr (Or.inl ⟨query, server, result, read, answers, handled, rfl⟩)
          · cases received
        · cases received
          exact Or.inl rfl
    | response response => exact Or.inr (Or.inr ⟨.ok response, read, received⟩)
    | error error => exact Or.inr (Or.inr ⟨.error error, read, received⟩)
  · split at received
    · cases received
      exact Or.inl rfl
    · cases received
      exact Or.inl rfl
  · cases received
    exact Or.inl rfl

namespace Router

variable {router next : Router}

/-- A stored contact was stored before or has just been added. -/
theorem Sound.add_origin (sound : router.Sound) {added : NodeInfo} (taken : router.add added = some next)
    {contact : NodeInfo} (member : contact ∈ Bucket.stored next.buckets) :
    contact ∈ Bucket.stored router.buckets ∨ contact = added := by
  rcases sound with ⟨own, kSize, live⟩
  unfold Router.add at taken
  split at taken
  · cases taken
    exact Or.inl member
  · rcases Option.map_eq_some_iff.mp taken with ⟨table, stored, rfl⟩
    have performed : Bucket.perform router.buckets (.add added) = some (table, none) := by
      rw [Bucket.perform, stored]
      rfl
    rcases perform_origin live performed member with before | same
    · exact Or.inl before
    · cases same
      exact Or.inr rfl

theorem Sound.banId (sound : router.Sound) (id : U160) :
    Exists fun next => router.banId id = some next ∧ next.Sound ∧
      forall contact, contact ∈ Bucket.stored next.buckets -> contact ∈ Bucket.stored router.buckets := by
  rcases sound with ⟨own, kSize, live⟩
  rcases remove_spec live (sharesPrefix_zero own id) with ⟨table, removed, live', _⟩
  refine ⟨⟨table, pushBan router.bannedIds id⟩, ?_, ⟨own, kSize, live'⟩, fun contact member => ?_⟩
  · rw [Router.banId, removed]
    rfl
  · exact (remove_sublist removed).mem member

end Router

/-- Telling the table of an outcome does not panic, and stores nobody but the sender
of a response. -/
theorem Purpose.tell_spec {router : Router} (sound : router.Sound) (outcome : Outcome) (purpose : Purpose) :
    Exists fun next => purpose.tell router outcome = some next ∧ next.Sound ∧
      forall contact, contact ∈ Bucket.stored next.buckets -> contact ∈ Bucket.stored router.buckets ∨
        Exists fun response => outcome.response = some response ∧ response.base.origin.toNodeInfo = contact := by
  have added : forall response, outcome.response = some response -> Exists fun next =>
      router.add response.base.origin.toNodeInfo = some next ∧ next.Sound ∧
        forall contact, contact ∈ Bucket.stored next.buckets -> contact ∈ Bucket.stored router.buckets ∨
          Exists fun response => outcome.response = some response ∧ response.base.origin.toNodeInfo = contact := by
    intro response same
    rcases sound.add response.base.origin.toNodeInfo with ⟨next, taken, nextSound⟩
    exact ⟨next, taken, nextSound, fun contact member => (sound.add_origin taken member).imp_right
      fun isSender => ⟨response, same, isSender.symm⟩⟩
  unfold tell
  cases purpose with
  | bootstrap =>
      cases same : outcome.response with
      | some response => simpa only [same] using added response same
      | none => exact ⟨router, rfl, sound, fun _ member => Or.inl member⟩
  | sendFind search node =>
      cases same : outcome.response with
      | some response => simpa only [same] using added response same
      | none =>
          rcases sound.banId node.id with ⟨next, banned, nextSound, before⟩
          exact ⟨next, banned, nextSound, fun contact member => Or.inl (before contact member)⟩
  | sample node => exact ⟨router, rfl, sound, fun _ member => Or.inl member⟩

/-! ## The invariant -/

/-- What holds after the events of a run: the table and the store are sound, what the
calls were handed came in a datagram, and so did every contact the table did not hold
at the start. -/
structure RunningNode.Sound (config : Node) (given : List NodeInfo) (events : List NodeEvent) (state : RunningNode Store) :
    Prop where
  router : state.node.server.router.Sound
  stores : Exists fun arrivals => config.server.Stores arrivals state.node.server.peers
  heard : forall item, state.node.messenger.Reaches item -> config.Hears events (QueryResult.intoMessage item.2)
  introduced : forall contact, contact ∈ Bucket.stored state.node.server.router.buckets ->
    contact ∈ given ∨ config.Introduces events state.node.messenger contact

theorem Stepped.keepsReturned {service : Service} {state next : ServiceState} {action : ServiceAction}
    (stepped : Stepped service state action next) (response : Response) (returned : state.Returned response) :
    next.Returned response := by
  rcases returned with ⟨index, call, found, returned⟩
  rcases stepped.returned found returned with ⟨later, laterFound, laterReturned⟩
  exact ⟨index, later, laterFound, laterReturned⟩

namespace RunningNode

variable {config : Node} {given : List NodeInfo} {state next : RunningNode Store} {event : NodeEvent}

/-- The messenger takes a step.  What it receives has been heard. -/
theorem Sound.of_stepped (sound : state.Sound config given events) {action : ServiceAction}
    (stepped : Stepped config.messenger state.node.messenger action next.node.messenger)
    (heard : forall result, action = .receive result -> config.Hears (events ++ [event]) (QueryResult.intoMessage result))
    (sameRouter : next.node.server.router = state.node.server.router)
    (samePeers : next.node.server.peers = state.node.server.peers) : next.Sound config given (events ++ [event]) where
  router := sameRouter ▸ sound.router
  stores := samePeers ▸ sound.stores
  heard := by
    intro item reaches
    rcases stepped.reaches reaches with before | ⟨received, _⟩
    · exact (sound.heard item before).append [event]
    · exact heard item.2 received
  introduced := by
    intro contact member
    rw [sameRouter] at member
    exact (sound.introduced contact member).imp_right fun introduces => introduces.mono [event] stepped.keepsReturned

/-- The messenger stands still.  New contacts have been introduced. -/
theorem Sound.of_table (sound : state.Sound config given events) (router : next.node.server.router.Sound)
    (stores : Exists fun arrivals => config.server.Stores arrivals next.node.server.peers)
    (sameMessenger : next.node.messenger = state.node.messenger)
    (introduced : forall contact, contact ∈ Bucket.stored next.node.server.router.buckets ->
      contact ∈ Bucket.stored state.node.server.router.buckets ∨
        config.Introduces (events ++ [event]) state.node.messenger contact) :
    next.Sound config given (events ++ [event]) where
  router := router
  stores := stores
  heard := by
    intro item reaches
    rw [sameMessenger] at reaches
    exact (sound.heard item reaches).append [event]
  introduced := by
    intro contact member
    rw [sameMessenger]
    rcases introduced contact member with before | now
    · exact (sound.introduced contact before).imp_right fun introduces => introduces.mono [event] fun _ same => same
    · exact Or.inr now

omit [PeerTree Store] in
/-- A step of the node's messenger changes nothing of the server but the counter. -/
theorem stepped_of_nodeStep {before after : NodeState Store} {action : NodeAction}
    (taken : config.step before action = some after) :
    after.server.router = before.server.router ∧ after.server.peers = before.server.peers ∧
      Exists fun inner => Stepped config.messenger before.messenger inner after.messenger ∧
        forall result, inner = .receive result -> action = .messenger (.receive result) := by
  cases action with
  | query receiver method =>
      cases taken
      exact ⟨rfl, rfl, _, .start _, by simp⟩
  | messenger action =>
      unfold Node.step at taken
      dsimp only at taken
      split at taken
      · cases taken
      · rcases Option.map_eq_some_iff.mp taken with ⟨messenger, moved, rfl⟩
        exact ⟨rfl, rfl, action, stepped_of_step moved, fun result same => congrArg NodeAction.messenger same⟩

/-- A handled query introduces its sender, unless it is read only. -/
theorem Sound.handled (sound : state.Sound config given events) {datagram : Datagram} {query : Query}
    {server : ServerState Store} {result : QueryResult}
    (read : Message.receive config.messenger.bencode datagram.bytes datagram.source = .ok (.query query))
    (answers : config.messenger.queriesInbound = true) (writable : config.server.readOnly = false)
    (handled : config.server.handleQuery state.node.server ⟨query, datagram.chance, datagram.dbFails⟩ =
      some (server, result)) :
    Sound config given (events ++ [.datagram datagram]) { state with node := { state.node with server := server } } := by
  rcases sound.stores with ⟨arrivals, stores⟩
  rcases Server.handleQuery_spec writable stores sound.router ⟨query, datagram.chance, datagram.dbFails⟩ with
    ⟨after, _, handledToo, router, storesAfter, _⟩
  rw [handled, Option.some.injEq, Prod.mk.injEq] at handledToo
  rcases handledToo with ⟨rfl, _⟩
  refine sound.of_table router ⟨_, storesAfter⟩ rfl fun contact member => ?_
  rcases Server.handleQuery_cases handled with ⟨_, rfl, _⟩ | ⟨_, entered, _, added, answered⟩
  · exact Or.inl member
  · rw [Server.answer_router answered] at member
    change contact ∈ Bucket.stored entered.buckets at member
    unfold Server.addContact at added
    split at added
    · cases added
      exact Or.inl member
    · rename_i active
      rcases sound.router.add_origin added member with before | rfl
      · exact Or.inl before
      · refine Or.inr ⟨.query query, ⟨datagram, List.mem_append_right _ List.mem_cons_self, read⟩, rfl, Or.inl ?_⟩
        exact ⟨query, rfl, Bool.eq_false_iff.mpr active, answers⟩

/-- Everything that a node does keeps the invariant. -/
theorem Sound.moved (wired : config.messenger.queriesInbound = !config.server.readOnly)
    (sound : state.Sound config given events) (moved : state.Moved config event next) :
    next.Sound config given (events ++ [event]) := by
  cases moved with
  | @datagram datagram node received =>
      rcases Node.recv_next received with rfl | ⟨query, server, result, read, answers, handled, rfl⟩ | ⟨result, read, taken⟩
      · exact sound.of_table sound.router sound.stores rfl fun _ member => Or.inl member
      · have writable : config.server.readOnly = false := by
          rw [answers] at wired
          exact (Bool.not_eq_eq_eq_not.mp wired.symm)
        exact sound.handled read answers writable handled
      · rcases stepped_of_nodeStep taken with ⟨sameRouter, samePeers, inner, stepped, own⟩
        refine sound.of_stepped stepped (fun received same => ?_) sameRouter samePeers
        cases own received same
        exact ⟨datagram, List.mem_append_right _ List.mem_cons_self, read⟩
  | @messenger action node notReceived taken =>
      rcases stepped_of_nodeStep taken with ⟨sameRouter, samePeers, inner, stepped, own⟩
      refine sound.of_stepped stepped (fun received same => ?_) sameRouter samePeers
      cases own received same
      exact absurd rfl (notReceived received)
  | asked _ taken =>
      rcases stepped_of_nodeStep taken with ⟨sameRouter, samePeers, inner, stepped, own⟩
      refine sound.of_stepped stepped (fun received same => ?_) sameRouter samePeers
      cases own received same
  | opened _ _ => exact sound.of_table sound.router sound.stores rfl fun _ member => Or.inl member
  | @concluded index errand outcome router found waiting returned told =>
      rcases errand.purpose.tell_spec sound.router outcome with ⟨_, toldToo, routerSound, origin⟩
      rw [told, Option.some.injEq] at toldToo
      subst toldToo
      refine sound.of_table routerSound sound.stores rfl fun contact member => (origin contact member).imp_right ?_
      rintro ⟨response, same, rfl⟩
      rw [Outcome.response_eq_some.mp same] at returned
      rcases outcomeOf_eq_some.mp returned with ⟨call, callFound, isReturned⟩
      have heard := sound.heard (errand.call, .ok response) (Or.inr ⟨call, callFound, Or.inr isReturned⟩)
      exact ⟨.response response, heard.append [_], rfl, Or.inr ⟨response, rfl, errand.call, call, callFound, isReturned⟩⟩
  | advanced _ _ _ _ => exact sound.of_table sound.router sound.stores rfl fun _ member => Or.inl member

/-- The run lemma. -/
theorem Sound.run {server : Server} {router : Router} {peers : Store} {final : RunningNode Store}
    (routerSound : router.Sound) (stores : Exists fun arrivals => server.Stores arrivals peers)
    (ran : RunningNode.run (Node.new server) (.new router peers) events = some final) :
    final.Sound (Node.new server) (Bucket.stored router.buckets) events := by
  have start : (RunningNode.new router peers).Sound (Node.new server) (Bucket.stored router.buckets) [] := by
    refine ⟨routerSound, stores, ?_, fun contact member => Or.inl member⟩
    rintro item (delivered | ⟨call, found, _⟩)
    · cases delivered
    · cases found
  exact PartialRun.run_history (fun _ _ _ _ sound taken => sound.moved rfl (moved_of_step taken)) start ran

/-- The handler of a query returns in every sound state. -/
theorem Sound.handles {server : Server} (sound : state.Sound (Node.new server) given events)
    (writable : server.readOnly = false) (arrival : Arrival) :
    Exists fun after => Exists fun result => server.handleQuery state.node.server arrival = some (after, result) := by
  rcases sound.stores with ⟨arrivals, stores⟩
  rcases Server.handleQuery_spec writable stores sound.router arrival with ⟨after, result, handled, _⟩
  exact ⟨after, result, handled⟩

/-- A datagram leaves a state, and its task panics at most in the writer of a reply. -/
theorem Sound.recv {server : Server} (sound : state.Sound (Node.new server) given events) (datagram : Datagram) :
    ((Node.new server).recv state.node datagram).next.isSome = true ∧
      (((Node.new server).recv state.node datagram).panics = true <->
        Exists fun query =>
          Message.receive server.bencode datagram.bytes datagram.source = .ok (.query query) ∧
          server.readOnly = false ∧ (forall cause, datagram.fault ≠ some (.encoding cause)) ∧
          server.ListsIpv6 state.node.server ⟨query, datagram.chance, datagram.dbFails⟩) := by
  have codec : (Node.new server).messenger.bencode = server.bencode := rfl
  have inbound : (Node.new server).messenger.queriesInbound = !server.readOnly := rfl
  have quiet : forall {next : Option (NodeState Store)}, next.isSome = true -> ¬(Node.quiet next).panics = true := by
    intro next present panics
    have absent : next.isNone = true := panics
    rw [Option.isNone_iff_eq_none.mp absent] at present
    cases present
  unfold Node.recv
  rw [codec]
  cases read : Message.receive server.bencode datagram.bytes datagram.source with
  | ok message =>
      cases message with
      | response response =>
          have returned := (Node.new server).isSome_returnResult state.node (.ok response)
          exact ⟨returned, iff_of_false (quiet returned) (by simp)⟩
      | error error =>
          have returned := (Node.new server).isSome_returnResult state.node (.error error)
          exact ⟨returned, iff_of_false (quiet returned) (by simp)⟩
      | query query =>
          dsimp only [Node.handleReceived]
          rw [inbound]
          cases readOnly : server.readOnly with
          | true => exact ⟨rfl, iff_of_false (quiet rfl) (by simp)⟩
          | false =>
              rcases sound.handles readOnly ⟨query, datagram.chance, datagram.dbFails⟩ with ⟨after, result, handled⟩
              have answers : (Node.new server).messenger.queriesInbound = true := by rw [inbound, readOnly]; rfl
              rw [Bool.not_false, if_pos rfl, show (Node.new server).server = server from rfl, handled]
              refine ⟨rfl, ?_⟩
              dsimp only [Service.sends]
              rw [Option.isNone_iff_eq_none, Service.sendMessage_eq_none_iff answers, codec,
                Server.reply_unwritten_iff handled]
              simp
  | error failure =>
      rcases failure with ⟨raw, cause⟩
      cases raw with
      | none => exact ⟨rfl, iff_of_false (quiet rfl) (by simp)⟩
      | some raw =>
          dsimp only
          split
          · rename_i answers
            refine ⟨rfl, iff_of_false ?_ (by simp)⟩
            dsimp only [Service.sends]
            rw [Option.isNone_iff_eq_none, Service.sendMessage_eq_none_iff answers]
            rintro ⟨_, unwritten⟩
            have written := (Message.isSome_toBytes (Node.new server).messenger.bencode
              (.error ((Node.new server).server.handleError raw.transactionId datagram.source cause))).mpr
              fun _ member => absurd member List.not_mem_nil
            rw [unwritten] at written
            cases written
          · exact ⟨rfl, iff_of_false (quiet rfl) (by simp)⟩

theorem run_datagram {config : Node} {datagram : Datagram} {node : NodeState Store}
    (received : (config.recv state.node datagram).next = some node) :
    state.run config [.datagram datagram] = some { state with node := node } :=
  PartialRun.run_cons_eq_some.mpr ⟨_, congrArg (Option.map _) received, rfl⟩

end RunningNode

/-- In every run of a node, every contact that its table did not hold at the start
sent a packet from its own address: a query, if neither the sender nor the node is
read only, or a response that one of the node's calls returned. -/
theorem node_contacts_introduced (server : Server) (router : Router) (reachable : router.Reachable) (peers : Store)
    (arrivals : List Arrival) (stores : server.Stores arrivals peers) (events : List NodeEvent) (final : RunningNode Store)
    (ran : RunningNode.run (Node.new server) (.new router peers) events = some final) (contact : NodeInfo)
    (stored : contact ∈ Bucket.stored final.node.server.router.buckets) :
    contact ∈ Bucket.stored router.buckets ∨
      Exists fun datagram => Exists fun message => NodeEvent.datagram datagram ∈ events ∧
        Message.receive server.bencode datagram.bytes datagram.source = .ok message ∧
        message.base.origin.toNodeInfo = contact ∧ datagram.source = contact.addr ∧
        ((Exists fun query => message = .query query ∧ query.base.readOnly = false ∧ server.readOnly = false) ∨
          Exists fun response => message = .response response ∧ final.node.messenger.Returned response) := by
  have sound := RunningNode.Sound.run reachable.sound ⟨arrivals, stores⟩ ran
  refine (sound.introduced contact stored).imp_right ?_
  rintro ⟨message, hears, rfl, kind⟩
  rcases hears.source with ⟨datagram, member, read, source⟩
  refine ⟨datagram, message, member, read, rfl, source.symm, kind.imp_left ?_⟩
  rintro ⟨query, isQuery, active, answers⟩
  exact ⟨query, isQuery, active, Bool.not_eq_eq_eq_not.mp answers⟩

namespace Sample

/-- The announcer asks whether the node is there. -/
def announcerPing : Query where
  method := .ping
  base :=
    { origin := .me announcer, destination := .addr peerServer.me.addr, requestorAddr := none, transactionId := [0, 1] }

/-- The announcer is the only contact. -/
def introduced : Router := ⟨[⟨peerServer.me.id, 0, K_SIZE, [announcer]⟩], []⟩

end Sample

open Sample in
theorem node_contacts_introduced_by_query :
    Exists fun datagram => Exists fun final =>
      RunningNode.run (Node.new peerServer) (.new (Router.new peerServer.me) (∅ : MemoryTree)) [.datagram datagram] =
        some final ∧
      announcer ∈ Bucket.stored final.node.server.router.buckets ∧ datagram.source = announcer.addr := by
  have encodable : (Message.query announcerPing).Encodable := rfl
  rcases Message.receive_encodable peerServer.bencode encodable announcer.addr with ⟨bytes, _, read⟩
  have received : ((Node.new peerServer).recv (RunningNode.new (Router.new peerServer.me) (∅ : MemoryTree)).node
      ⟨bytes, announcer.addr, ⟨0, 0, 0, 0, .reservoir fun _ => 0⟩, false, none⟩).next =
        some ⟨⟨introduced, 0, ∅⟩, .initial⟩ := by
    unfold Node.recv
    rw [show Message.receive (Node.new peerServer).messenger.bencode bytes announcer.addr = _ from read]
    rfl
  have ran := RunningNode.run_datagram received
  have stored : announcer ∈ Bucket.stored introduced.buckets := List.mem_singleton.mpr rfl
  rcases node_contacts_introduced peerServer _ (Router.reachable_new _) (∅ : MemoryTree) [] peerServer.stores_empty
    _ _ ran announcer stored with given | ⟨datagram, _, member, _, _, source, _⟩
  · cases given
  · cases List.mem_singleton.mp member
    exact ⟨_, _, ran, stored, rfl⟩

namespace Ipv6Sender

/-- The table has taken in the sender of the ping. -/
def entered : Router := ⟨[⟨Sample.peerServer.me.id, 0, K_SIZE, [ping.query.base.origin.toNodeInfo]⟩], []⟩

end Ipv6Sender

end DhtExplorer
