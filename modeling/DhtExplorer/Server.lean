import DhtExplorer.AddressBinding
import DhtExplorer.Library.KeyStore
import DhtExplorer.Message
import DhtExplorer.Router

namespace DhtExplorer

open BigEndian (Bytes)
open Kmsg (SocketAddrWrapper)

/-!
# The query handler

The server answers queries from its routing table and its peer store.  The
store comes from another package, and is any map from the bytes of an info hash
to a bencoded list of addresses.  A handler has no result where the source
panics: the assertion that the node is not read only, an `unwrap` of a record,
or the routing table.
-/

/-- The tree of peer records. -/
abbrev PeerTree (Store : Type) := KeyStore Store Bytes Bytes

/-- Records that are kept in memory. -/
abbrev MemoryTree := Std.TreeMap Bytes Bytes

/-- What does not change while a node runs. -/
structure Server where
  readOnly : Bool
  me : NodeInfo
  tokens : TokenGenerator
  crypto : Crypto
  bencode : Bencode.Codec

structure ServerState (Store : Type) where
  router : Router
  /-- The counter behind the transaction ids of the node's own queries. -/
  transaction : UInt64
  peers : Store

/-- One query with its surroundings: the clock, the random draws, and whether
the operations on the store succeed while it is handled. -/
structure Arrival where
  query : Query
  chance : Chance
  dbFails : Bool := false

namespace Server

variable {Store : Type} [PeerTree Store]

def responseBase (self : Server) (tid : Bytes) (receiver : Receiver) : MessageBase where
  origin := .me self.me
  transactionId := tid
  destination := receiver
  requestorAddr := receiver.toSocketAddr

/-! ## The peer store -/

/-- The addresses of a record, as `from_slice` reads them. -/
def readRecord (self : Server) (record : Bytes) : Option (List SocketAddrWrapper) :=
  (self.bencode.fromSlice record).bind (SocketAddrWrapper.deserializeAll (self.bencode.stray record []))

def writeRecord (self : Server) (socks : List SocketAddrWrapper) : Bytes :=
  self.bencode.toVec (SocketAddrWrapper.serializeAll socks)

/-- `map_or_else`: an absent record reads as an empty one. -/
def recordedSocks (self : Server) (peers : Store) (infoHash : U160) : Option (List SocketAddrWrapper) :=
  match KeyStore.get peers infoHash.toBeBytes with
  | none => some []
  | some record => self.readRecord record

def handleAnnounce (self : Server) (peers : Store) (arrival : Arrival) (responseBase : MessageBase)
    (origin : NodeInfo) (infoHash : U160) (port : UInt16) (token : Bytes) : Option (Store × QueryResult) :=
  if !self.tokens.validate self.crypto arrival.chance token origin.addr.ip then
    some (peers, .error (responseBase.intoError .protocol))
  else if !origin.validate self.crypto arrival.chance then
    some (peers, .error (responseBase.intoError .invalidNodeId))
  else if arrival.dbFails then some (peers, .error (responseBase.intoError .server))
  else
    let wrap : SocketAddrWrapper := ⟨some (SocketAddr.new origin.addr.ip port)⟩
    (self.recordedSocks peers infoHash).map fun socks =>
      let socks := if socks.contains wrap then socks else socks ++ [wrap]
      (KeyStore.insert peers infoHash.toBeBytes (self.writeRecord socks), .ok (responseBase.intoResponse .ok))

def handleGetPeers (self : Server) (state : ServerState Store) (arrival : Arrival) (responseBase : MessageBase)
    (origin : NodeInfo) (infoHash : U160) : Option QueryResult :=
  let token := self.tokens.generate self.crypto arrival.chance origin.addr.ip
  if arrival.dbFails then some (.error (responseBase.intoError .server))
  else
    match KeyStore.get state.peers infoHash.toBeBytes with
    | some record => do
        let socks ← self.readRecord record
        let peers ← socks.mapM SocketAddrWrapper.socketAddr
        let nodes ← state.router.lookup infoHash
        some (.ok (responseBase.intoResponse (.peers peers token (some nodes))))
    | none => do
        let nodes ← state.router.lookup infoHash
        some (.ok (responseBase.intoResponse (.kNearest nodes (some token))))

/-- What fits in one packet. -/
def maxSamples : Nat := 65535 / 20 - 10

def handleSample (state : ServerState Store) (arrival : Arrival) (responseBase : MessageBase)
    (target : U160) : Option QueryResult :=
  if arrival.dbFails then some (.error (responseBase.intoError .server))
  else
    let available := UInt64.ofNat (KeyStore.size state.peers)
    let hashes := (KeyStore.keys state.peers).filterMap fun key =>
      if key.length = 20 then some (U160.fromBeBytes key) else none
    let samples := arrival.chance.sampler.chooseMultiple maxSamples hashes
    (state.router.lookup target).map fun nodes =>
      .ok (responseBase.intoResponse (.samples nodes samples available 0))

/-! ## Dispatch -/

/-- The reply to a query that is not an echo, with the routing table updated. -/
def answer (self : Server) (state : ServerState Store) (arrival : Arrival) (responseBase : MessageBase) :
    Option (ServerState Store × QueryResult) :=
  let origin := arrival.query.base.origin.toNodeInfo
  match arrival.query.method with
  | .ping => some (state, .ok (responseBase.intoResponse .ok))
  | .findNode target =>
      (state.router.lookup target).map fun nodes => (state, .ok (responseBase.intoResponse (.kNearest nodes none)))
  | .getPeers infoHash =>
      (self.handleGetPeers state arrival responseBase origin infoHash).map fun result => (state, result)
  | .announcePeer infoHash port token =>
      (self.handleAnnounce state.peers arrival responseBase origin infoHash port token).map fun (peers, result) =>
        ({ state with peers := peers }, result)
  | .put _ => some (state, .error (responseBase.intoError .methodUnknown))
  | .get => some (state, .error (responseBase.intoError .methodUnknown))
  | .sampleInfohashes target =>
      (handleSample state arrival responseBase target).map fun result => (state, result)

/-- Contacts that do not say they are read only enter the routing table. -/
def addContact (state : ServerState Store) (base : MessageBase) : Option Router :=
  if base.readOnly then some state.router else state.router.add base.origin.toNodeInfo

def handleQuery (self : Server) (state : ServerState Store) (arrival : Arrival) : Option (ServerState Store × QueryResult) :=
  let base := arrival.query.base
  if self.readOnly then none
  else
    let responseBase := self.responseBase base.transactionId (Receiver.ofSender base.origin)
    if base.origin.id = self.me.id then some (state, .error (responseBase.intoErrorGeneric "Echo!"))
    else
      (addContact state base).bind fun router => self.answer { state with router := router } arrival responseBase

def handleError (self : Server) (tid : Bytes) (sourceAddr : SocketAddr) (error : KnownError) : Error :=
  (self.responseBase tid (.addr sourceAddr)).intoError error

end Server
end DhtExplorer
