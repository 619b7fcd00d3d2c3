import DhtExplorer.Kmsg.Written
import DhtExplorer.PeerStore

namespace DhtExplorer

/-!
# Replies that can be written

A reply may list contacts of the routing table, and the encoder of that list
panics on an IPv6 address.  The table takes in the sender of every query that
does not say it is read only, whatever its address is.  So the replies of a
server can be written for as long as the neighbourhoods they list are IPv4, and
this is certain only while no IPv6 sender has entered the table.
-/

/-! ## What the encoder needs -/

/-- The contact list can be written exactly when all its addresses are IPv4. -/
theorem Kmsg.CompactIPv4NodeInfo.isSome_serialize (self : Kmsg.CompactIPv4NodeInfo) :
    self.serialize.isSome = true <-> forall node, node ∈ self.dhtNodes -> node.IsIpv4 := by
  constructor
  · intro written
    rcases Option.isSome_iff_exists.mp written with ⟨value, written⟩
    exact ipv4_of_serialize written
  · intro ipv4
    rcases serialize_ipv4 ipv4 with ⟨value, written, _⟩
    rw [written]
    rfl

theorem Kmsg.KResponse.isSome_serialize (self : Kmsg.KResponse) :
    self.serialize.isSome = true <->
      forall nodes, self.nodes = some nodes -> forall node, node ∈ nodes.dhtNodes -> node.IsIpv4 := by
  rw [serialize]
  cases present : self.nodes with
  | none => simp
  | some nodes =>
      change (Option.map _ nodes.serialize).isSome = true <-> _
      rw [Option.isSome_map, nodes.isSome_serialize]
      simp

theorem Kmsg.KMessage.isSome_serialize (self : Kmsg.KMessage) :
    self.serialize.isSome = true <->
      forall response, self.response = some response -> response.serialize.isSome = true := by
  rw [serialize]
  cases present : self.response with
  | none => simp
  | some response =>
      change (Option.map _ response.serialize).isSome = true <-> _
      rw [Option.isSome_map]
      simp

/-- The contacts that a message lists. -/
def Message.contacts : Message -> List NodeInfo
  | response r =>
      match r.kind with
      | .kNearest nodes _ => nodes
      | .peers _ _ nodes => nodes.getD []
      | .samples nodes _ _ _ => nodes
      | _ => []
  | _ => []

theorem Message.isSome_toBytes (bencode : Bencode.Codec) (self : Message) :
    (self.toBytes bencode).isSome = true <-> forall node, node ∈ self.contacts -> node.IsIpv4 := by
  rw [toBytes, Option.isSome_map, Kmsg.KMessage.isSome_serialize]
  simp only [Kmsg.KResponse.isSome_serialize]
  cases self with
  | query q =>
      rcases q with ⟨method, base⟩
      cases method <;> simp [toKmsg, builder, contacts]
  | error e => simp [toKmsg, builder, contacts]
  | response r =>
      rcases r with ⟨kind, base⟩
      cases kind with
      | peers peers token nodes => cases nodes <;> simp [toKmsg, contacts]
      | _ => simp [toKmsg, contacts]

/-! ## What a reply lists -/

/-- The id whose neighbourhood the reply lists, if it lists any. -/
def Arrival.lookedUp (self : Arrival) : Option U160 :=
  match self.query.method with
  | .findNode target => some target
  | .getPeers infoHash => if self.dbFails then none else some infoHash
  | .sampleInfohashes target => if self.dbFails then none else some target
  | _ => none

variable {Store : Type} [PeerTree Store]

namespace Server

/-- The neighbourhood that the reply lists, in the table that the sender of the
query has entered. -/
def listed (self : Server) (state : ServerState Store) (arrival : Arrival) : Option (List NodeInfo) :=
  if arrival.query.base.origin.id = self.me.id then some []
  else
    match arrival.lookedUp with
    | none => some []
    | some target => (addContact state arrival.query.base).bind fun router => router.lookup target

variable {self : Server} {state after : ServerState Store} {arrival : Arrival} {result : QueryResult}

/-- A reply to an announcement lists no contacts. -/
theorem handleAnnounce_contacts {peers peers' : Store} {responseBase : MessageBase} {origin : NodeInfo}
    {infoHash : U160} {port : UInt16} {token : BigEndian.Bytes}
    (handled : self.handleAnnounce peers arrival responseBase origin infoHash port token = some (peers', result)) :
    result.intoMessage.contacts = [] := by
  unfold handleAnnounce at handled
  split at handled
  · cases handled
    rfl
  · split at handled
    · cases handled
      rfl
    · split at handled
      · cases handled
        rfl
      · rcases Option.map_eq_some_iff.mp handled with ⟨socks, _, same⟩
        cases same
        rfl

/-- Unless the store fails, a reply with peers lists the neighbourhood of the hash. -/
theorem handleGetPeers_contacts {responseBase : MessageBase} {origin : NodeInfo} {infoHash : U160}
    (handled : self.handleGetPeers state arrival responseBase origin infoHash = some result) :
    (if arrival.dbFails then some [] else state.router.lookup infoHash) = some result.intoMessage.contacts := by
  unfold handleGetPeers at handled
  cases works : arrival.dbFails with
  | true =>
      simp only [works, if_true, Option.some.injEq] at handled
      subst handled
      rfl
  | false =>
      simp only [works, Bool.false_eq_true, if_false] at handled
      cases record : KeyStore.get state.peers infoHash.toBeBytes with
      | none =>
          simp only [record, Option.bind_eq_bind, Option.bind_eq_some_iff, Option.some.injEq] at handled
          rcases handled with ⟨nodes, found, rfl⟩
          exact found
      | some bytes =>
          simp only [record, Option.bind_eq_bind, Option.bind_eq_some_iff, Option.some.injEq] at handled
          rcases handled with ⟨_, _, _, _, nodes, found, rfl⟩
          exact found

theorem handleSample_contacts {responseBase : MessageBase} {target : U160}
    (handled : handleSample state arrival responseBase target = some result) :
    (if arrival.dbFails then some [] else state.router.lookup target) = some result.intoMessage.contacts := by
  unfold handleSample at handled
  cases works : arrival.dbFails with
  | true =>
      simp only [works, if_true, Option.some.injEq] at handled
      subst handled
      rfl
  | false =>
      simp only [works, Bool.false_eq_true, if_false, Option.map_eq_some_iff] at handled
      rcases handled with ⟨nodes, found, rfl⟩
      exact found

/-- A reply of `answer` lists the neighbourhood of the id that the query names. -/
theorem answer_contacts {responseBase : MessageBase}
    (answered : self.answer state arrival responseBase = some (after, result)) :
    (match arrival.lookedUp with
      | none => some []
      | some target => state.router.lookup target) = some result.intoMessage.contacts := by
  unfold answer at answered
  unfold Arrival.lookedUp
  cases method : arrival.query.method with
  | ping | put _ | get =>
      rw [method] at answered
      cases answered
      rfl
  | findNode target =>
      rw [method] at answered
      rcases Option.map_eq_some_iff.mp answered with ⟨nodes, found, same⟩
      cases same
      exact found
  | getPeers infoHash =>
      rw [method] at answered
      rcases Option.map_eq_some_iff.mp answered with ⟨reply, handled, same⟩
      cases same
      rw [<- handleGetPeers_contacts handled]
      cases arrival.dbFails <;> rfl
  | announcePeer infoHash port token =>
      rw [method] at answered
      rcases Option.map_eq_some_iff.mp answered with ⟨⟨peers, reply⟩, handled, same⟩
      cases same
      exact (congrArg some (handleAnnounce_contacts handled)).symm
  | sampleInfohashes target =>
      rw [method] at answered
      rcases Option.map_eq_some_iff.mp answered with ⟨reply, handled, same⟩
      cases same
      rw [<- handleSample_contacts handled]
      cases arrival.dbFails <;> rfl

/-- A query is an echo, or its sender is entered and the query answered. -/
theorem handleQuery_cases (handled : self.handleQuery state arrival = some (after, result)) :
    (arrival.query.base.origin.id = self.me.id ∧ after = state ∧ result.intoMessage.contacts = []) ∨
    (arrival.query.base.origin.id ≠ self.me.id ∧ Exists fun router => Exists fun responseBase =>
      addContact state arrival.query.base = some router ∧
      self.answer { state with router := router } arrival responseBase = some (after, result)) := by
  unfold handleQuery at handled
  by_cases readOnly : self.readOnly = true
  · rw [if_pos readOnly] at handled
    cases handled
  · rw [if_neg readOnly] at handled
    by_cases echo : arrival.query.base.origin.id = self.me.id
    · rw [if_pos echo] at handled
      cases handled
      exact Or.inl ⟨echo, rfl, rfl⟩
    · rw [if_neg echo] at handled
      rcases Option.bind_eq_some_iff.mp handled with ⟨router, entered, answered⟩
      exact Or.inr ⟨echo, router, _, entered, answered⟩

theorem handleQuery_contacts (handled : self.handleQuery state arrival = some (after, result)) :
    self.listed state arrival = some result.intoMessage.contacts := by
  unfold listed
  rcases handleQuery_cases handled with ⟨echo, _, nothing⟩ | ⟨foreign, router, responseBase, entered, answered⟩
  · rw [if_pos echo, nothing]
  · rw [if_neg foreign, <- answer_contacts answered, entered]
    rfl

/-- The reply can be written exactly when the neighbourhood it lists is IPv4. -/
theorem reply_written_iff (handled : self.handleQuery state arrival = some (after, result)) :
    (result.intoMessage.toBytes self.bencode).isSome = true <->
      forall nodes, self.listed state arrival = some nodes -> forall node, node ∈ nodes -> node.IsIpv4 := by
  rw [Message.isSome_toBytes, handleQuery_contacts handled]
  constructor
  · rintro ipv4 nodes same
    exact Option.some.inj same ▸ ipv4
  · exact fun ipv4 => ipv4 _ rfl

/-- The neighbourhood that the reply lists has an IPv6 contact. -/
def ListsIpv6 (self : Server) (state : ServerState Store) (arrival : Arrival) : Prop :=
  Exists fun nodes => Exists fun contact => self.listed state arrival = some nodes ∧ contact ∈ nodes ∧ ¬contact.IsIpv4

theorem reply_unwritten_iff (handled : self.handleQuery state arrival = some (after, result)) :
    result.intoMessage.toBytes self.bencode = none <-> self.ListsIpv6 state arrival := by
  rw [<- Option.not_isSome_iff_eq_none, reply_written_iff handled]
  constructor
  · intro notAll
    by_contra none
    exact notAll fun nodes listed node member => by_contra fun ipv6 => none ⟨nodes, node, listed, member, ipv6⟩
  · rintro ⟨nodes, contact, listed, member, ipv6⟩ all
    exact ipv6 (all nodes listed contact member)

/-! ## Which contacts a table holds -/

/-- The sender of the query is offered to the routing table, and the table stores it.
A banned sender is not stored. -/
def Enters (self : Server) (state : ServerState Store) (arrival : Arrival) : Prop :=
  arrival.query.base.origin.id ≠ self.me.id ∧ arrival.query.base.readOnly = false ∧ Exists fun router =>
    addContact state arrival.query.base = some router ∧
    arrival.query.base.origin.toNodeInfo ∈ Bucket.stored router.buckets

/-- The sender is IPv4 if the table stores it. -/
def EntersIpv4 (self : Server) (state : ServerState Store) (arrival : Arrival) : Prop :=
  self.Enters state arrival -> arrival.query.base.origin.toNodeInfo.IsIpv4

/-- A sound router that stores IPv4 contacts only. -/
def Ipv4Only (router : Router) : Prop :=
  router.Sound ∧ forall node, node ∈ Bucket.stored router.buckets -> node.IsIpv4

theorem Ipv4Only.add {router router' : Router} (only : Ipv4Only router) {node : NodeInfo}
    (ipv4 : node ∈ Bucket.stored router'.buckets -> node.IsIpv4) (added : router.add node = some router') :
    Ipv4Only router' := by
  rcases only with ⟨⟨own, kSize, live⟩, all⟩
  unfold Router.add at added
  split at added
  · cases added
    exact ⟨⟨own, kSize, live⟩, all⟩
  · rcases Option.map_eq_some_iff.mp added with ⟨table, stored, rfl⟩
    have performed : Bucket.perform router.buckets (.add node) = some (table, none) := by
      rw [Bucket.perform, stored]
      rfl
    rcases perform_live live (.add node) with ⟨_, _, performedToo, live'⟩
    rw [performed, Option.some.injEq, Prod.mk.injEq] at performedToo
    refine ⟨⟨own, kSize, performedToo.1 ▸ live'⟩, fun other member => ?_⟩
    rcases perform_origin live performed member with before | same
    · exact all other before
    · cases same
      exact ipv4 member

theorem Ipv4Only.lookup {router : Router} (only : Ipv4Only router) {id : U160} {nodes : List NodeInfo}
    (found : router.lookup id = some nodes) : forall node, node ∈ nodes -> node.IsIpv4 := by
  exact fun node member => only.2 node (Bucket.mem_stored_of_lookup found node member)

omit [PeerTree Store] in
theorem Ipv4Only.addContact (only : Ipv4Only state.router) {router : Router}
    (foreign : arrival.query.base.origin.id ≠ self.me.id) (ipv4 : self.EntersIpv4 state arrival)
    (entered : Server.addContact state arrival.query.base = some router) : Ipv4Only router := by
  have enters := fun active stored => ipv4 ⟨foreign, active, router, entered, stored⟩
  unfold Server.addContact at entered
  split at entered
  · cases entered
    exact only
  · rename_i active
    exact only.add (enters (Bool.eq_false_iff.mpr active)) entered

theorem answer_router {responseBase : MessageBase}
    (answered : self.answer state arrival responseBase = some (after, result)) : after.router = state.router := by
  unfold answer at answered
  cases method : arrival.query.method with
  | ping | put _ | get =>
      rw [method] at answered
      cases answered
      rfl
  | findNode _ | getPeers _ | announcePeer _ _ _ | sampleInfohashes _ =>
      rw [method] at answered
      rcases Option.map_eq_some_iff.mp answered with ⟨reply, _, same⟩
      cases same
      rfl

/-- Only the sender of a query changes the routing table. -/
theorem Ipv4Only.handleQuery (only : Ipv4Only state.router) (ipv4 : self.EntersIpv4 state arrival)
    (handled : self.handleQuery state arrival = some (after, result)) : Ipv4Only after.router := by
  rcases handleQuery_cases handled with ⟨_, rfl, _⟩ | ⟨foreign, router, responseBase, entered, answered⟩
  · exact only
  · rw [answer_router answered]
    exact only.addContact foreign ipv4 entered

omit [PeerTree Store] in
theorem Ipv4Only.listed (only : Ipv4Only state.router) (ipv4 : self.EntersIpv4 state arrival)
    {nodes : List NodeInfo} (listed : self.listed state arrival = some nodes) :
    forall node, node ∈ nodes -> node.IsIpv4 := by
  unfold Server.listed at listed
  split at listed
  · cases listed
    exact fun _ member => absurd member List.not_mem_nil
  · rename_i foreign
    cases target : arrival.lookedUp with
    | none =>
        rw [target] at listed
        cases listed
        exact fun _ member => absurd member List.not_mem_nil
    | some id =>
        rw [target] at listed
        rcases Option.bind_eq_some_iff.mp listed with ⟨router, entered, found⟩
        exact (only.addContact foreign ipv4 entered).lookup found

end Server

/-- After any queries, the reply to every further one can be written exactly when
the neighbourhood it lists is IPv4.  This is so throughout when all senders that
the table stores are IPv4 from the start. -/
theorem replies_written_iff (Store : Type) [PeerTree Store] (self : Server) (writable : self.readOnly = false)
    (router : Router) (reachable : router.Reachable) (transaction : UInt64) (arrivals : List Arrival) :
    Exists fun final : ServerState Store => Exists fun results =>
      PartialRun.replies self.handleQuery ⟨router, transaction, KeyStore.empty⟩ arrivals = some (final, results) ∧
      (forall next, Exists fun after => Exists fun result => self.handleQuery final next = some (after, result) ∧
        ((result.intoMessage.toBytes self.bencode).isSome = true <->
          forall nodes, self.listed final next = some nodes -> forall node, node ∈ nodes -> node.IsIpv4)) ∧
      ((forall node, node ∈ Bucket.stored router.buckets -> node.IsIpv4) ->
        PartialRun.Permitted (PartialRun.silent self.handleQuery) self.EntersIpv4
          ⟨router, transaction, (KeyStore.empty : Store)⟩ arrivals ->
        forall next after result, self.EntersIpv4 final next -> self.handleQuery final next = some (after, result) ->
          (result.intoMessage.toBytes self.bencode).isSome = true) := by
  rcases self.replies_all Store writable reachable.sound transaction arrivals with ⟨final, results, replied, stores, sound⟩
  refine ⟨final, results, replied, fun next => ?_, fun ipv4 senders next after result sender handled => ?_⟩
  · rcases Server.handleQuery_spec writable stores sound next with ⟨after, result, handled, _⟩
    exact ⟨after, result, handled, Server.reply_written_iff handled⟩
  · have enters : forall (state : ServerState Store) arrival next, Server.Ipv4Only state.router ->
        self.EntersIpv4 state arrival -> PartialRun.silent self.handleQuery state arrival = some next ->
        Server.Ipv4Only next.router := by
      intro state arrival next only sender taken
      rcases PartialRun.silent_eq_some.mp taken with ⟨_, handled⟩
      exact only.handleQuery sender handled
    have only : Server.Ipv4Only final.router :=
      PartialRun.run_invariant_of_permitted enters ⟨reachable.sound, ipv4⟩ senders (PartialRun.run_of_replies replied)
    exact (Server.reply_written_iff handled).mpr fun nodes listed => only.listed sender listed

namespace Ipv6Sender

/-- A ping from an IPv6 address, with a valid envelope. -/
def ping : Arrival where
  query :=
    { method := .ping
      base :=
        { origin := .remote ⟨U160.new 1 0, .v6 1 6881 0 0⟩
          destination := .me
          requestorAddr := none
          transactionId := [0, 1] } }
  chance := ⟨0, 0, 0, 0, .reservoir fun _ => 0⟩

/-- Then another node asks for a neighbourhood. -/
def findNode : Arrival where
  query :=
    { method := .findNode U160.min
      base :=
        { origin := .remote ⟨U160.new 2 0, .v4 0x01010101 6881⟩
          destination := .me
          requestorAddr := none
          transactionId := [0, 2] } }
  chance := ⟨0, 0, 0, 0, .reservoir fun _ => 0⟩

/-- A table that refuses the sender of the ping. -/
def banning : Router := { Router.new Sample.peerServer.me with bannedIds := [U160.new 1 0] }

theorem banning_reachable : banning.Reachable := Router.reachable_new Sample.peerServer.me

theorem banning_enters : Sample.peerServer.EntersIpv4 ⟨banning, 0, (∅ : MemoryTree)⟩ ping := by
  rintro ⟨_, _, router, entered, stored⟩
  cases entered
  cases stored

end Ipv6Sender

open Ipv6Sender in
/-- While its IPv6 sender is banned, a ping does no harm. -/
theorem replies_written_iff_ipv6 :
    Exists fun final => Exists fun results =>
      PartialRun.replies Sample.peerServer.handleQuery ⟨banning, 0, (∅ : MemoryTree)⟩ [ping] = some (final, results) ∧
      Exists fun after => Exists fun result =>
        Sample.peerServer.handleQuery final findNode = some (after, result) ∧
        (result.intoMessage.toBytes Sample.peerServer.bencode).isSome = true ∧
        forall nodes, Sample.peerServer.listed final findNode = some nodes ->
          forall node, node ∈ nodes -> node.IsIpv4 := by
  rcases replies_written_iff MemoryTree Sample.peerServer rfl banning banning_reachable 0 [ping] with
    ⟨final, results, replied, each, throughout⟩
  rcases each findNode with ⟨after, result, handled, written_iff⟩
  have written := throughout (fun _ member => absurd member List.not_mem_nil) ⟨banning_enters, fun _ _ => trivial⟩
    findNode after result (fun _ => trivial) handled
  exact ⟨final, results, replied, after, result, handled, written, written_iff.mp written⟩

/-- The ping is answered, and the next reply lists its sender and cannot be written. -/
theorem ipv6_sender_stops_replies :
    (PartialRun.replies Sample.peerServer.handleQuery ⟨Router.new Sample.peerServer.me, 0, (∅ : MemoryTree)⟩
        [Ipv6Sender.ping, Ipv6Sender.findNode]).map
      (fun run => run.2.map fun result => (result.intoMessage.toBytes Sample.peerServer.bencode).isSome) =
    some [true, false] := by
  decide +kernel

end DhtExplorer
