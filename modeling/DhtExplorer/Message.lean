import DhtExplorer.Kmsg.KMessage

namespace DhtExplorer

open BigEndian (Bytes)

/-!
# Messages

A message is a query, a response or an error, with the envelope all three share.
Messages built here have the node itself as their origin; received ones have the
contact they came from, and are addressed to the node itself.
-/

/-- The largest payload of a UDP datagram over IPv4.  The socket refuses what is longer. -/
def MAX_DATAGRAM : Nat := 65507

inductive Sender where
  | remote (node : NodeInfo)
  | me (node : NodeInfo)
deriving DecidableEq, Repr

namespace Sender

def addr : Sender -> SocketAddr
  | remote info => info.addr
  | me info => info.addr

def id : Sender -> U160
  | remote info => info.id
  | me info => info.id

def toNodeInfo : Sender -> NodeInfo
  | remote info => info
  | me info => info

end Sender

inductive Receiver where
  | node (node : NodeInfo)
  | addr (addr : SocketAddr)
  | me
deriving DecidableEq, Repr

namespace Receiver

def ofSender : Sender -> Receiver
  | .remote info => node info
  | .me info => node info

def toSocketAddr : Receiver -> Option SocketAddr
  | node info => some info.addr
  | addr socketAddr => some socketAddr
  | me => none

end Receiver

/-- The sending program, from the four version bytes.  Its name is a matter of
display only. -/
structure Client where
  code : UInt8 × UInt8
  version : UInt16
deriving DecidableEq, Repr

namespace Client

/-- The bytes have to be exactly four. -/
def fromBytes : Bytes -> Option Client
  | [first, second, high, low] =>
      some ⟨(first, second), UInt16.ofNat high.toNat <<< 8 ||| UInt16.ofNat low.toNat⟩
  | _ => none

end Client

structure MessageBase where
  origin : Sender
  destination : Receiver
  requestorAddr : Option SocketAddr
  transactionId : Bytes
  readOnly : Bool := false
  client : Option Client := none
deriving DecidableEq, Repr

inductive QueryMethod where
  | ping
  | findNode (target : U160)
  | getPeers (infoHash : U160)
  | announcePeer (infoHash : U160) (port : UInt16) (token : Bytes)
  | put (base : Kmsg.MessageArgsBep44)
  | get
  | sampleInfohashes (target : U160)
deriving DecidableEq, Repr

structure Query where
  method : QueryMethod
  base : MessageBase
deriving DecidableEq, Repr

inductive ResponseKind where
  | ok
  | kNearest (nodes : List NodeInfo) (token : Option Bytes)
  | peers (peers : List SocketAddr) (token : Bytes) (nodes : Option (List NodeInfo))
  | data (base : Kmsg.KResponseBep44)
  | samples (nodes : List NodeInfo) (samples : List U160) (available : UInt64) (interval : UInt16)
deriving DecidableEq, Repr

structure Response where
  kind : ResponseKind
  base : MessageBase
deriving DecidableEq, Repr

structure Error where
  error : Kmsg.Error
  base : MessageBase
deriving DecidableEq, Repr

inductive Message where
  | query (query : Query)
  | response (response : Response)
  | error (error : Error)
deriving DecidableEq, Repr

abbrev QueryResult := Except Error Response

inductive KnownError where
  | generic
  | server
  | protocol
  | methodUnknown
  | invalidV
  | invalidSig
  | saltTooLong
  | casMismatch
  | seqLessThanCurrent
  | invalidNodeId
  | internal
deriving DecidableEq, Repr

namespace KnownError

def code : KnownError -> UInt16
  | generic => 201
  | server => 202
  | protocol => 203
  | methodUnknown => 204
  | invalidV => 205
  | invalidSig => 206
  | saltTooLong => 207
  | casMismatch => 301
  | seqLessThanCurrent => 302
  | invalidNodeId => 305
  | internal => 501

def description : KnownError -> String
  | generic => "A Generic Error Occurred"
  | server => "The Server Encountered an Error"
  | protocol => "Protocol Error, such as a malformed packet, invalid arguments, or bad token"
  | methodUnknown => "Method Unknown"
  | invalidV => "V missing or too long (>999)."
  | invalidSig => "Invalid signature"
  | saltTooLong => "Salt too long (>64)"
  | casMismatch => "the CAS hash didn't match, re-read value and try again"
  | seqLessThanCurrent => "sequence number less than current"
  | internal => "An internal error occurred"
  | invalidNodeId => "Invalid node id"

end KnownError

namespace MessageBase

def intoErrorGeneric (self : MessageBase) (description : String) : Error :=
  ⟨⟨KnownError.generic.code, description⟩, self⟩

def intoError (self : MessageBase) (kind : KnownError) : Error :=
  ⟨⟨kind.code, kind.description⟩, self⟩

def intoQuery (self : MessageBase) (method : QueryMethod) : Query := ⟨method, self⟩

def intoResponse (self : MessageBase) (kind : ResponseKind) : Response := ⟨kind, self⟩

end MessageBase

namespace QueryResult

def base : QueryResult -> MessageBase
  | .ok response => response.base
  | .error error => error.base

def intoMessage : QueryResult -> Message
  | .ok response => .response response
  | .error error => .error error

end QueryResult

namespace Message

open Kmsg

def base : Message -> MessageBase
  | query q => q.base
  | response r => r.base
  | error e => e.base

/-! ## To the wire form -/

/-- The fields common to all kinds of messages. -/
def builder (self : Message) (messageType : String) : KMessage where
  transactionId := self.base.transactionId
  messageType := messageType
  requestorIp := some
    { socketAddr :=
        match self with
        | query _ => some self.base.origin.addr
        | response _ => self.base.requestorAddr
        | error _ => none }
  readOnly := some self.base.readOnly

def toKmsg (self : Message) : KMessage :=
  match self with
  | query q =>
      let args : MessageArgs := { id := self.base.origin.id }
      let builder := self.builder Y_QUERY
      match q.method with
      | .ping => { builder with queryMethod := some Q_PING, arguments := some args }
      | .findNode target =>
          { builder with queryMethod := some Q_FIND_NODE, arguments := some { args with target := some target } }
      | .getPeers infoHash =>
          { builder with
            queryMethod := some Q_GET_PEERS, arguments := some { args with infoHash := some infoHash } }
      | .announcePeer infoHash port token =>
          { builder with
            queryMethod := some Q_ANNOUNCE_PEER
            arguments := some
              { args with infoHash := some infoHash, token := some token, port := some port } }
      | .put base => { builder with queryMethod := some Q_PUT, arguments := some { args with bep44 := base } }
      | .get => { builder with queryMethod := some Q_GET, arguments := some args }
      | .sampleInfohashes target =>
          { builder with
            queryMethod := some Q_SAMPLE_INFOHASHES, arguments := some { args with target := some target } }
  | response r =>
      let reply : KResponse := { id := self.base.origin.id }
      let builder := self.builder Y_RESPONSE
      match r.kind with
      | .ok => { builder with response := some reply }
      | .kNearest nodes token =>
          { builder with response := some { reply with nodes := some ⟨nodes⟩, token := token } }
      | .peers peers token nodes =>
          { builder with
            response := some
              { reply with
                values := some (peers.map fun peer => ⟨some peer⟩)
                token := some token
                nodes := nodes.map fun nodes => ⟨nodes⟩ } }
      | .data base => { builder with response := some { reply with bep44 := base } }
      | .samples nodes samples available interval =>
          { builder with
            response := some
              { reply with
                nodes := some ⟨nodes⟩
                bep51 := { samples := some ⟨samples⟩, num := some available, interval := some interval } } }
  | error e => { self.builder Y_ERROR with error := some e.error }

/-! ## From the wire form -/

/-- The envelope of a received message.  The id is set later, from the arguments
or the response. -/
def receivedBase (originAddr : SocketAddr) (kmsg : KMessage) : MessageBase where
  origin := .remote ⟨U160.min, originAddr⟩
  destination := .me
  transactionId := kmsg.transactionId
  requestorAddr := kmsg.requestorIp.bind SocketAddrWrapper.socketAddr
  readOnly := kmsg.readOnly.getD false
  client := kmsg.version.bind Client.fromBytes

/-- `ok_or`. -/
def okOr {α : Type} (content : Option α) (error : KnownError) : Except KnownError α :=
  match content with
  | some item => .ok item
  | none => .error error

/-- The method of a query.  An unknown one that names a hash or a target is
treated as `find_node`. -/
def methodOf (originAddr : SocketAddr) (args : MessageArgs) (name : String) :
    Except KnownError QueryMethod :=
  if name = Q_PING then .ok .ping
  else if name = Q_FIND_NODE then do
    let target ← okOr args.target .protocol
    .ok (.findNode target)
  else if name = Q_ANNOUNCE_PEER then do
    let infoHash ← okOr args.infoHash .protocol
    let token ← okOr args.token .protocol
    let port :=
      match args.port with
      | none => originAddr.port
      | some port => if args.impliedPort.getD false then originAddr.port else port
    .ok (.announcePeer infoHash port token)
  else if name = Q_GET_PEERS then do
    let infoHash ← okOr args.infoHash .protocol
    .ok (.getPeers infoHash)
  else if name = Q_PUT then .ok (.put args.bep44)
  else if name = Q_GET then .ok .get
  else if name = Q_SAMPLE_INFOHASHES then do
    let target ← okOr args.target .protocol
    .ok (.sampleInfohashes target)
  else
    match args.infoHash.or args.target with
    | some target => .ok (.findNode target)
    | none => .error .methodUnknown

/-- The kind of a response, from the fields that are present, in a fixed order. -/
def kindOf (response : KResponse) : Except KnownError ResponseKind :=
  match response.values with
  | some peers => do
      let token ← okOr response.token .protocol
      .ok (.peers (peers.filterMap SocketAddrWrapper.socketAddr) token
        (response.nodes.map CompactIPv4NodeInfo.dhtNodes))
  | none =>
      if response.bep44.v.isSome then .ok (.data response.bep44)
      else
        match response.bep51.samples with
        | some samples => do
            let nodes ← okOr response.nodes .protocol
            .ok (.samples nodes.dhtNodes samples.infoHashes (response.bep51.num.getD 0)
              (response.bep51.interval.getD 0))
        | none =>
            match response.nodes with
            | some nodes => .ok (.kNearest nodes.dhtNodes response.token)
            | none => .ok .ok

def fromKmsg (originAddr : SocketAddr) (kmsg : KMessage) : Except KnownError Message :=
  let base := receivedBase originAddr kmsg
  if kmsg.messageType = Y_ERROR then do
    let cause ← okOr kmsg.error .protocol
    .ok (.error ⟨cause, base⟩)
  else if kmsg.messageType = Y_QUERY then
    match kmsg.arguments with
    | some args => do
        let base := { base with origin := .remote ⟨args.id, originAddr⟩ }
        let name ← okOr kmsg.queryMethod .protocol
        let method ← methodOf originAddr args name
        .ok (.query ⟨method, base⟩)
    | none => .error .protocol
  else if kmsg.messageType = Y_RESPONSE then
    match kmsg.response with
    | some reply => do
        let base := { base with origin := .remote ⟨reply.id, originAddr⟩ }
        let kind ← kindOf reply
        .ok (.response ⟨kind, base⟩)
    | none => .error .protocol
  else .error .protocol

/-! ## To and from bytes -/

/-- There is no result where the contact list writer panics. -/
def toBytes (bencode : Bencode.Codec) (self : Message) : Option Bytes :=
  self.toKmsg.serialize.map bencode.toVec

/-- A failure carries the wire form when there is one. -/
def receive (bencode : Bencode.Codec) (bytes : Bytes) (source : SocketAddr) :
    Except (Option KMessage × KnownError) Message :=
  match (bencode.fromSlice bytes).bind (KMessage.deserialize (bencode.stray bytes)) with
  | none => .error (none, .server)
  | some kmsg =>
      match fromKmsg source kmsg with
      | .ok message => .ok message
      | .error cause => .error (some kmsg, cause)

end Message
end DhtExplorer
