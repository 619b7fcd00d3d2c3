import DhtExplorer.Library.PacketNetwork
import DhtExplorer.NodeContacts

namespace DhtExplorer

open BigEndian (Bytes)
open PacketNetwork (Network NodeKind)

/-!
# A network of nodes

Nodes of this program exchange datagrams that may be lost, duplicated and reordered.
Whatever one node does in such a network is a run of the node alone, so what holds along
every run of a node holds in every network.  The network adds where the datagrams come
from: their sources are addresses of its nodes.

So no table takes in a contact at any other address, and in a network of IPv4 nodes no
writer of a reply meets an address that it cannot write.  Replies are not answered, and
so there are never more replies than queries and copies of packets.
-/

/-- A server, and the address that the others know it by. -/
structure Host where
  server : Server
  address : SocketAddr

def Host.IsIpv4 (self : Host) : Prop := forall id, (NodeInfo.mk id self.address).IsIpv4

theorem Host.IsIpv4.of_addr {self : Host} (ipv4 : self.IsIpv4) {node : NodeInfo} (same : node.addr = self.address) :
    node.IsIpv4 := by
  rcases node with ⟨id, addr⟩
  cases same
  exact ipv4 id

/-- All about an arrival that the packet does not decide. -/
structure Note where
  chance : Chance
  dbFails : Bool
  fault : Option SendFault

variable {Store : Type} [PeerTree Store]

/-- The packets that an event puts on the wire.  The socket refuses what is too long. -/
def RunningNode.posts (config : Node) (self : RunningNode Store) (event : NodeEvent) : List Packet :=
  let packets :=
    match event with
    | .datagram datagram => (config.recv self.node datagram).sent
    | .messenger (.send call fault) =>
        match self.node.messenger.calls[call]? with
        | some made => config.messenger.packets (.query made.query) fault
        | none => []
    | _ => []
  packets.filter fun packet => packet.1.length ≤ MAX_DATAGRAM

def NodeEvent.isOwn : NodeEvent -> Bool
  | .datagram _ => false
  | _ => true

/-- The event sends a query. -/
def NodeEvent.asks : NodeEvent -> Bool
  | .messenger (.send _ _) => true
  | _ => false

def Host.kind (Store : Type) [PeerTree Store] : NodeKind Host (RunningNode Store) NodeEvent Note SocketAddr Bytes where
  address := Host.address
  step := fun host => RunningNode.step (Node.new host.server)
  sends := fun host => RunningNode.posts (Node.new host.server)
  own := NodeEvent.isOwn
  arrival := fun bytes source note => .datagram ⟨bytes, source, note.chance, note.dbFails, note.fault⟩

/-- Every packet on the wire comes from one of the hosts. -/
def FromHosts (hosts : List Host) (network : Network (RunningNode Store) SocketAddr Bytes) : Prop :=
  forall parcel, parcel ∈ network.wire -> Exists fun host => host ∈ hosts ∧ parcel.source = host.address

variable {hosts : List Host} {start final : Network (RunningNode Store) SocketAddr Bytes}
  {actions : List (PacketNetwork.Action NodeEvent Note)} {index : Nat} {host : Host} {state : RunningNode Store}

theorem FromHosts.step {network next : Network (RunningNode Store) SocketAddr Bytes}
    {action : PacketNetwork.Action NodeEvent Note} (genuine : FromHosts hosts network)
    (stepped : network.step (Host.kind Store) hosts action = some next) : FromHosts hosts next := by
  intro parcel member
  cases PacketNetwork.change_of_step stepped with
  | wire same old => exact genuine parcel (old parcel member)
  | node index host state after event there found offers taken moved old =>
      rcases old parcel member with before | posted
      · exact genuine parcel before
      · rcases List.mem_map.mp posted with ⟨packet, _, rfl⟩
        exact ⟨host, List.mem_of_getElem? there, rfl⟩

/-! ## One node of the network -/

/-- A node of the network is sound after a run of its own, in which every datagram came
from one of the hosts. -/
theorem network_node_sound {router : Router} {peers : Store} {arrivals : List Arrival}
    (there : hosts[index]? = some host) (initially : start.nodes[index]? = some (.new router peers))
    (routerSound : router.Sound) (stores : host.server.Stores arrivals peers) (genuine : FromHosts hosts start)
    (ran : start.run (Host.kind Store) hosts actions = some final) (found : final.nodes[index]? = some state) :
    Exists fun events => state.Sound (Node.new host.server) (Bucket.stored router.buckets) events ∧
      forall datagram, NodeEvent.datagram datagram ∈ events ->
        Exists fun other => other ∈ hosts ∧ datagram.source = other.address := by
  rcases PacketNetwork.run_node there initially ran found with ⟨events, reached, arise⟩
  refine ⟨events, RunningNode.Sound.run routerSound ⟨arrivals, stores⟩ reached, fun datagram member => ?_⟩
  rcases arise _ member with ⟨middle, passes, isOwn | ⟨parcel, note, onWire, _, same⟩⟩
  · cases isOwn
  · have kept := passes.keeps (fun _ _ _ genuine stepped => FromHosts.step genuine stepped) genuine
    rcases kept parcel onWire with ⟨other, among, source⟩
    cases same
    exact ⟨other, among, source⟩

/-- Every contact that a table did not hold at the start has the address of a node of the
network. -/
theorem network_contacts {router : Router} {peers : Store} {arrivals : List Arrival}
    (there : hosts[index]? = some host) (initially : start.nodes[index]? = some (.new router peers))
    (routerSound : router.Sound) (stores : host.server.Stores arrivals peers) (genuine : FromHosts hosts start)
    (ran : start.run (Host.kind Store) hosts actions = some final) (found : final.nodes[index]? = some state)
    {contact : NodeInfo} (stored : contact ∈ Bucket.stored state.node.server.router.buckets) :
    contact ∈ Bucket.stored router.buckets ∨ Exists fun other => other ∈ hosts ∧ contact.addr = other.address := by
  rcases network_node_sound there initially routerSound stores genuine ran found with ⟨events, sound, sources⟩
  refine (sound.introduced contact stored).imp_right ?_
  rintro ⟨message, hears, rfl, _⟩
  rcases hears.source with ⟨datagram, member, _, source⟩
  rcases sources datagram member with ⟨other, among, same⟩
  exact ⟨other, among, source.trans same⟩

/-- In a network of IPv4 nodes whose tables start with IPv4 contacts, no task panics over
a packet that is on the wire. -/
theorem network_never_panics {router : Router} {peers : Store} {arrivals : List Arrival}
    (there : hosts[index]? = some host) (initially : start.nodes[index]? = some (.new router peers))
    (routerSound : router.Sound) (stores : host.server.Stores arrivals peers) (genuine : FromHosts hosts start)
    (ipv4Hosts : forall other, other ∈ hosts -> other.IsIpv4)
    (ipv4Table : forall contact, contact ∈ Bucket.stored router.buckets -> contact.IsIpv4)
    (ran : start.run (Host.kind Store) hosts actions = some final) (found : final.nodes[index]? = some state)
    {datagram : Datagram} (source : Exists fun other => other ∈ hosts ∧ datagram.source = other.address) :
    ((Node.new host.server).recv state.node datagram).panics = false := by
  rcases network_node_sound there initially routerSound stores genuine ran found with ⟨events, sound, _⟩
  have table : Server.Ipv4Only state.node.server.router := by
    refine ⟨sound.router, fun contact stored => ?_⟩
    rcases network_contacts there initially routerSound stores genuine ran found stored with given | ⟨other, among, same⟩
    · exact ipv4Table contact given
    · exact (ipv4Hosts other among).of_addr same
  apply Bool.eq_false_iff.mpr
  intro panics
  rcases (sound.recv datagram).2.mp panics with ⟨query, read, _, _, nodes, contact, listed, member, ipv6⟩
  refine ipv6 (table.listed (fun _ => ?_) listed contact member)
  rcases source with ⟨other, among, same⟩
  have hears : (Node.new host.server).Hears [.datagram datagram] (.query query) := ⟨datagram, List.mem_cons_self, read⟩
  rcases hears.source with ⟨only, isDatagram, _, own⟩
  cases List.mem_singleton.mp isDatagram
  exact (ipv4Hosts other among).of_addr (own.trans same)

/-! ## Traffic -/

/-- Nodes with one codec answer with one packet at most, and nobody answers that. -/
theorem Host.terse {codec : Bencode.Codec} (oneCodec : forall host, host ∈ hosts -> host.server.bencode = codec) :
    PacketNetwork.Terse (Host.kind Store) hosts NodeEvent.asks where
  asked := by
    intro host _ state event isOwn
    cases event with
    | datagram datagram => cases isOwn
    | messenger action =>
        cases action with
        | send call fault =>
            refine (List.length_filter_le _ _).trans ?_
            dsimp only
            split
            · exact Service.length_packets _ _ _
            · exact Nat.zero_le 1
        | _ => exact Nat.zero_le _
    | _ => exact Nat.zero_le _
  answered := fun host _ state content source note =>
    (List.length_filter_le _ _).trans (Node.length_sent _ _ _)
  final := by
    intro host among state content source note packet sent other amongToo otherState from' noteToo
    have replies := Node.replies_of_mem_sent (List.mem_of_mem_filter sent)
    have sameCodec : (Node.new other.server).messenger.bencode = (Node.new host.server).messenger.bencode :=
      (oneCodec other amongToo).trans (oneCodec host among).symm
    have silent : ((Node.new other.server).recv otherState.node
        ⟨packet.1, from', noteToo.chance, noteToo.dbFails, noteToo.fault⟩).sent = [] :=
      replies.unanswered sameCodec otherState.node rfl
    change List.filter _ (Node.recv _ _ _).sent = []
    rw [silent]
    rfl

/-- In every schedule there are at most as many replies as packets on the wire at the
start, queries that were sent, and copies that the network made. -/
theorem network_traffic {codec : Bencode.Codec} (oneCodec : forall host, host ∈ hosts -> host.server.bencode = codec)
    (ran : start.run (Host.kind Store) hosts actions = some final) :
    PartialRun.cost (Network.step (Host.kind Store) hosts) (Network.answers (Host.kind Store) hosts) start actions ≤
      start.wire.length + actions.countP (PacketNetwork.Action.fresh NodeEvent.asks) := by
  have bound := PacketNetwork.traffic_le (Host.terse oneCodec) ran
  have pending := Network.pending_le_length (Host.kind Store) hosts start.wire
  omega

end DhtExplorer
