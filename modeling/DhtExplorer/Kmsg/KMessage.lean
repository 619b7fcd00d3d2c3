import DhtExplorer.Kmsg.Wrappers

namespace DhtExplorer
namespace Kmsg

open BigEndian (Bytes)
open Bencode (Value Stray record entriesOf requiredField optionalField CanonicalContent)

/-!
# The wire form of a message

A message on the wire is one dictionary.  Fields that are absent are not
written, and the extension fields of arguments and responses stand in the same
dictionary as the basic ones.  Unknown fields are ignored when reading.

The central result is that reading inverts writing, for every combination of
fields, as long as the contact list can be written at all and no address carries
more than an IP and a port.  What stands for a byte string in somebody else's message
is read as the library hands it over, which may differ from field to field.
-/

def Q_ANNOUNCE_PEER : String := "announce_peer"
def Q_PING : String := "ping"
def Q_FIND_NODE : String := "find_node"
def Q_GET_PEERS : String := "get_peers"
def Q_PUT : String := "put"
def Q_GET : String := "get"
def Q_SAMPLE_INFOHASHES : String := "sample_infohashes"

def Y_QUERY : String := "q"
def Y_RESPONSE : String := "r"
def Y_ERROR : String := "e"

structure Error where
  code : UInt16
  description : String
deriving DecidableEq, Repr

structure MessageArgsBep44 where
  v : Option Bytes := none
  seq : Option Int64 := none
  cas : Option Int64 := none
  k : Option Bytes := none
  salt : Option String := none
  sig : Option Bytes := none
deriving DecidableEq, Repr

structure MessageArgs where
  id : U160
  target : Option U160 := none
  port : Option UInt16 := none
  impliedPort : Option Bool := none
  token : Option Bytes := none
  infoHash : Option U160 := none
  bep44 : MessageArgsBep44 := {}
deriving DecidableEq, Repr

structure KResponseBep44 where
  v : Option Bytes := none
  seq : Option Int64 := none
  k : Option Bytes := none
  sig : Option Bytes := none
deriving DecidableEq, Repr

structure ResponseBep51 where
  interval : Option UInt16 := none
  samples : Option CompactInfoHashes := none
  num : Option UInt64 := none
deriving DecidableEq, Repr

structure KResponse where
  id : U160
  nodes : Option CompactIPv4NodeInfo := none
  token : Option Bytes := none
  values : Option (List SocketAddrWrapper) := none
  bep44 : KResponseBep44 := {}
  bep51 : ResponseBep51 := {}
deriving DecidableEq, Repr

structure KMessage where
  transactionId : Bytes
  messageType : String
  queryMethod : Option String := none
  arguments : Option MessageArgs := none
  response : Option KResponse := none
  error : Option Error := none
  requestorIp : Option SocketAddrWrapper := none
  readOnly : Option Bool := none
  version : Option Bytes := none
deriving DecidableEq, Repr

/-! ## Errors are two-element lists -/

namespace Error

def serialize (self : Error) : Value := .list [u16 self.code, string self.description]

/-- Missing elements read as defaults. -/
def deserialize (stray : Value -> Option Bytes) : Value -> Option Error
  | .list [] => some ⟨0, ""⟩
  | .list [code] => (asU16 code).map fun code => ⟨code, ""⟩
  | .list [code, description] =>
      (asU16 code).bind fun code => (asString stray description).map fun description => ⟨code, description⟩
  | _ => none

theorem deserialize_serialize (stray : Value -> Option Bytes) (self : Error) :
    deserialize stray self.serialize = some self := by
  simp only [serialize, deserialize, asU16_u16, asString_string, Option.bind_some, Option.map_some]

theorem canonical_serialize (self : Error) : self.serialize.Canonical := by
  refine .list ?_
  intro item member
  rcases List.mem_cons.mp member with rfl | rest
  · exact canonical_u16 _
  · rw [List.mem_singleton.mp rest]
    exact canonical_string _

end Error

/-! ## Query arguments -/

namespace MessageArgs

def fields (self : MessageArgs) : List (Bytes × Option Value) :=
  [(utf8 "id", some (serializeU160 self.id)),
    (utf8 "target", self.target.map serializeU160),
    (utf8 "port", self.port.map u16),
    (utf8 "implied_port", self.impliedPort.map intFromBool),
    (utf8 "token", self.token.map .bytes),
    (utf8 "info_hash", self.infoHash.map serializeU160),
    (utf8 "v", self.bep44.v.map .bytes),
    (utf8 "seq", self.bep44.seq.map i64),
    (utf8 "cas", self.bep44.cas.map i64),
    (utf8 "k", self.bep44.k.map .bytes),
    (utf8 "salt", self.bep44.salt.map string),
    (utf8 "sig", self.bep44.sig.map .bytes)]

def serialize (self : MessageArgs) : Value := record self.fields

def ofEntries (stray : Stray) (entries : List (Bytes × Value)) : Option MessageArgs := do
  let id ← requiredField entries (utf8 "id") (deserializeU160 (stray [utf8 "id"]))
  let target ← optionalField entries (utf8 "target") (deserializeU160 (stray [utf8 "target"]))
  let port ← optionalField entries (utf8 "port") asU16
  let impliedPort ← optionalField entries (utf8 "implied_port") boolFromInt
  let token ← optionalField entries (utf8 "token") (asBytes (stray [utf8 "token"]))
  let infoHash ← optionalField entries (utf8 "info_hash") (deserializeU160 (stray [utf8 "info_hash"]))
  let v ← optionalField entries (utf8 "v") (asBytes (stray [utf8 "v"]))
  let seq ← optionalField entries (utf8 "seq") asI64
  let cas ← optionalField entries (utf8 "cas") asI64
  let k ← optionalField entries (utf8 "k") (asBytes (stray [utf8 "k"]))
  let salt ← optionalField entries (utf8 "salt") (asString (stray [utf8 "salt"]))
  let sig ← optionalField entries (utf8 "sig") (asBytes (stray [utf8 "sig"]))
  some { id, target, port, impliedPort, token, infoHash, bep44 := { v, seq, cas, k, salt, sig } }

def deserialize (stray : Stray) : Value -> Option MessageArgs
  | .dict entries => ofEntries stray entries
  | _ => none

theorem nodup_keys (self : MessageArgs) : (self.fields.map Prod.fst).Nodup := by
  change List.Nodup [utf8 "id", utf8 "target", utf8 "port", utf8 "implied_port", utf8 "token",
    utf8 "info_hash", utf8 "v", utf8 "seq", utf8 "cas", utf8 "k", utf8 "salt", utf8 "sig"]
  decide

theorem deserialize_serialize (stray : Stray) (self : MessageArgs) : deserialize stray self.serialize = some self := by
  have keys := self.nodup_keys
  have id : requiredField (entriesOf self.fields) (utf8 "id") (deserializeU160 (stray [utf8 "id"])) = some self.id :=
    Bencode.requiredField_entriesOf keys (by simp only [fields, List.mem_cons, true_or])
      (deserializeU160_serializeU160 _ self.id)
  have target : optionalField (entriesOf self.fields) (utf8 "target") (deserializeU160 (stray [utf8 "target"])) =
      some self.target :=
    Bencode.optionalField_entriesOf keys (by simp only [fields, List.mem_cons, true_or, or_true])
      fun _ _ => deserializeU160_serializeU160 _ _
  have port : optionalField (entriesOf self.fields) (utf8 "port") asU16 = some self.port :=
    Bencode.optionalField_entriesOf keys (by simp only [fields, List.mem_cons, true_or, or_true])
      fun _ _ => asU16_u16 _
  have impliedPort : optionalField (entriesOf self.fields) (utf8 "implied_port") boolFromInt =
      some self.impliedPort :=
    Bencode.optionalField_entriesOf keys (by simp only [fields, List.mem_cons, true_or, or_true])
      fun _ _ => boolFromInt_intFromBool _
  have token : optionalField (entriesOf self.fields) (utf8 "token") (asBytes (stray [utf8 "token"])) =
      some self.token :=
    Bencode.optionalField_entriesOf keys (by simp only [fields, List.mem_cons, true_or, or_true])
      fun _ _ => asBytes_bytes _ _
  have infoHash : optionalField (entriesOf self.fields) (utf8 "info_hash") (deserializeU160 (stray [utf8 "info_hash"])) =
      some self.infoHash :=
    Bencode.optionalField_entriesOf keys (by simp only [fields, List.mem_cons, true_or, or_true])
      fun _ _ => deserializeU160_serializeU160 _ _
  have v : optionalField (entriesOf self.fields) (utf8 "v") (asBytes (stray [utf8 "v"])) = some self.bep44.v :=
    Bencode.optionalField_entriesOf keys (by simp only [fields, List.mem_cons, true_or, or_true])
      fun _ _ => asBytes_bytes _ _
  have seq : optionalField (entriesOf self.fields) (utf8 "seq") asI64 = some self.bep44.seq :=
    Bencode.optionalField_entriesOf keys (by simp only [fields, List.mem_cons, true_or, or_true])
      fun _ _ => asI64_i64 _
  have cas : optionalField (entriesOf self.fields) (utf8 "cas") asI64 = some self.bep44.cas :=
    Bencode.optionalField_entriesOf keys (by simp only [fields, List.mem_cons, true_or, or_true])
      fun _ _ => asI64_i64 _
  have k : optionalField (entriesOf self.fields) (utf8 "k") (asBytes (stray [utf8 "k"])) = some self.bep44.k :=
    Bencode.optionalField_entriesOf keys (by simp only [fields, List.mem_cons, true_or, or_true])
      fun _ _ => asBytes_bytes _ _
  have salt : optionalField (entriesOf self.fields) (utf8 "salt") (asString (stray [utf8 "salt"])) =
      some self.bep44.salt :=
    Bencode.optionalField_entriesOf keys (by simp only [fields, List.mem_cons, true_or, or_true])
      fun _ _ => asString_string _ _
  have sig : optionalField (entriesOf self.fields) (utf8 "sig") (asBytes (stray [utf8 "sig"])) =
      some self.bep44.sig :=
    Bencode.optionalField_entriesOf keys (by simp only [fields, List.mem_cons, true_or, or_true])
      fun _ _ => asBytes_bytes _ _
  change ofEntries stray (entriesOf self.fields) = some self
  simp only [ofEntries, id, target, port, impliedPort, token, infoHash, v, seq, cas, k, salt, sig,
    Option.bind_eq_bind, Option.bind_some]

theorem canonical_serialize (self : MessageArgs) : self.serialize.Canonical := by
  apply Bencode.canonical_record_of_contents self.nodup_keys
  simp only [fields, List.forall_mem_cons]
  refine ⟨?_, ?_, ?_, ?_, ?_, ?_, ?_, ?_, ?_, ?_, ?_, ?_, ?_⟩
  · exact Bencode.canonicalContent_some (canonical_serializeU160 _)
  · exact Bencode.canonicalContent_map fun _ _ => canonical_serializeU160 _
  · exact Bencode.canonicalContent_map fun _ _ => canonical_u16 _
  · exact Bencode.canonicalContent_map fun _ _ => canonical_intFromBool _
  · exact Bencode.canonicalContent_map fun _ _ => .bytes _
  · exact Bencode.canonicalContent_map fun _ _ => canonical_serializeU160 _
  · exact Bencode.canonicalContent_map fun _ _ => .bytes _
  · exact Bencode.canonicalContent_map fun _ _ => canonical_i64 _
  · exact Bencode.canonicalContent_map fun _ _ => canonical_i64 _
  · exact Bencode.canonicalContent_map fun _ _ => .bytes _
  · exact Bencode.canonicalContent_map fun _ _ => canonical_string _
  · exact Bencode.canonicalContent_map fun _ _ => .bytes _
  · exact fun _ impossible => absurd impossible List.not_mem_nil

end MessageArgs

/-! ## Responses -/

namespace KResponse

/-- The fields of a response.  The contact list is written beforehand, because
its writer can panic. -/
def fields (self : KResponse) (nodes : Option Value) : List (Bytes × Option Value) :=
  [(utf8 "id", some (serializeU160 self.id)),
    (utf8 "nodes", nodes),
    (utf8 "token", self.token.map .bytes),
    (utf8 "values", self.values.map SocketAddrWrapper.serializeAll),
    (utf8 "v", self.bep44.v.map .bytes),
    (utf8 "seq", self.bep44.seq.map i64),
    (utf8 "k", self.bep44.k.map .bytes),
    (utf8 "sig", self.bep44.sig.map .bytes),
    (utf8 "interval", self.bep51.interval.map u16),
    (utf8 "samples", self.bep51.samples.map CompactInfoHashes.serialize),
    (utf8 "num", self.bep51.num.map u64)]

def serialize (self : KResponse) : Option Value :=
  match self.nodes with
  | none => some (record (self.fields none))
  | some nodes => nodes.serialize.map fun nodes => record (self.fields (some nodes))

def ofEntries (stray : Stray) (entries : List (Bytes × Value)) : Option KResponse := do
  let id ← requiredField entries (utf8 "id") (deserializeU160 (stray [utf8 "id"]))
  let nodes ← optionalField entries (utf8 "nodes") (CompactIPv4NodeInfo.deserialize (stray [utf8 "nodes"]))
  let token ← optionalField entries (utf8 "token") (asBytes (stray [utf8 "token"]))
  let values ← optionalField entries (utf8 "values") (SocketAddrWrapper.deserializeAll (stray [utf8 "values"]))
  let v ← optionalField entries (utf8 "v") (asBytes (stray [utf8 "v"]))
  let seq ← optionalField entries (utf8 "seq") asI64
  let k ← optionalField entries (utf8 "k") (asBytes (stray [utf8 "k"]))
  let sig ← optionalField entries (utf8 "sig") (asBytes (stray [utf8 "sig"]))
  let interval ← optionalField entries (utf8 "interval") asU16
  let samples ← optionalField entries (utf8 "samples") (CompactInfoHashes.deserialize (stray [utf8 "samples"]))
  let num ← optionalField entries (utf8 "num") asU64
  some { id, nodes, token, values, bep44 := { v, seq, k, sig }, bep51 := { interval, samples, num } }

def deserialize (stray : Stray) : Value -> Option KResponse
  | .dict entries => ofEntries stray entries
  | _ => none

/-- The writer does not panic and the encoding loses nothing. -/
structure Writable (response : KResponse) : Prop where
  ipv4 : forall nodes, response.nodes = some nodes -> forall node, node ∈ nodes.dhtNodes -> node.IsIpv4
  plain : forall values, response.values = some values -> forall value, value ∈ values -> value.Plain

theorem nodup_keys (self : KResponse) (nodes : Option Value) : ((self.fields nodes).map Prod.fst).Nodup := by
  change List.Nodup [utf8 "id", utf8 "nodes", utf8 "token", utf8 "values", utf8 "v", utf8 "seq", utf8 "k",
    utf8 "sig", utf8 "interval", utf8 "samples", utf8 "num"]
  decide

/-- Reading the fields, given that the contact list reads back. -/
private theorem ofEntries_fields (stray : Stray) {self : KResponse} (writable : self.Writable) {content : Option Value}
    (nodes : optionalField (entriesOf (self.fields content)) (utf8 "nodes")
        (CompactIPv4NodeInfo.deserialize (stray [utf8 "nodes"])) =
      some self.nodes) : ofEntries stray (entriesOf (self.fields content)) = some self := by
  have keys := self.nodup_keys content
  have id : requiredField (entriesOf (self.fields content)) (utf8 "id") (deserializeU160 (stray [utf8 "id"])) =
      some self.id :=
    Bencode.requiredField_entriesOf keys (by simp only [fields, List.mem_cons, true_or])
      (deserializeU160_serializeU160 _ self.id)
  have token : optionalField (entriesOf (self.fields content)) (utf8 "token") (asBytes (stray [utf8 "token"])) =
      some self.token :=
    Bencode.optionalField_entriesOf keys (by simp only [fields, List.mem_cons, true_or, or_true])
      fun _ _ => asBytes_bytes _ _
  have values : optionalField (entriesOf (self.fields content)) (utf8 "values")
      (SocketAddrWrapper.deserializeAll (stray [utf8 "values"])) =
      some self.values :=
    Bencode.optionalField_entriesOf keys (by simp only [fields, List.mem_cons, true_or, or_true])
      fun values present => SocketAddrWrapper.deserializeAll_serializeAll _ (writable.plain values present)
  have v : optionalField (entriesOf (self.fields content)) (utf8 "v") (asBytes (stray [utf8 "v"])) =
      some self.bep44.v :=
    Bencode.optionalField_entriesOf keys (by simp only [fields, List.mem_cons, true_or, or_true])
      fun _ _ => asBytes_bytes _ _
  have seq : optionalField (entriesOf (self.fields content)) (utf8 "seq") asI64 = some self.bep44.seq :=
    Bencode.optionalField_entriesOf keys (by simp only [fields, List.mem_cons, true_or, or_true])
      fun _ _ => asI64_i64 _
  have k : optionalField (entriesOf (self.fields content)) (utf8 "k") (asBytes (stray [utf8 "k"])) =
      some self.bep44.k :=
    Bencode.optionalField_entriesOf keys (by simp only [fields, List.mem_cons, true_or, or_true])
      fun _ _ => asBytes_bytes _ _
  have sig : optionalField (entriesOf (self.fields content)) (utf8 "sig") (asBytes (stray [utf8 "sig"])) =
      some self.bep44.sig :=
    Bencode.optionalField_entriesOf keys (by simp only [fields, List.mem_cons, true_or, or_true])
      fun _ _ => asBytes_bytes _ _
  have interval : optionalField (entriesOf (self.fields content)) (utf8 "interval") asU16 =
      some self.bep51.interval :=
    Bencode.optionalField_entriesOf keys (by simp only [fields, List.mem_cons, true_or, or_true])
      fun _ _ => asU16_u16 _
  have samples : optionalField (entriesOf (self.fields content)) (utf8 "samples")
      (CompactInfoHashes.deserialize (stray [utf8 "samples"])) =
      some self.bep51.samples :=
    Bencode.optionalField_entriesOf keys (by simp only [fields, List.mem_cons, true_or, or_true])
      fun _ _ => CompactInfoHashes.deserialize_serialize _ _
  have num : optionalField (entriesOf (self.fields content)) (utf8 "num") asU64 = some self.bep51.num :=
    Bencode.optionalField_entriesOf keys (by simp only [fields, List.mem_cons, true_or, or_true])
      fun _ _ => asU64_u64 _
  simp only [ofEntries, id, nodes, token, values, v, seq, k, sig, interval, samples, num,
    Option.bind_eq_bind, Option.bind_some]

private theorem canonical_fields (self : KResponse) {content : Option Value}
    (nodes : CanonicalContent content) : (record (self.fields content)).Canonical := by
  apply Bencode.canonical_record_of_contents (self.nodup_keys content)
  simp only [fields, List.forall_mem_cons]
  refine ⟨?_, nodes, ?_, ?_, ?_, ?_, ?_, ?_, ?_, ?_, ?_, ?_⟩
  · exact Bencode.canonicalContent_some (canonical_serializeU160 _)
  · exact Bencode.canonicalContent_map fun _ _ => .bytes _
  · exact Bencode.canonicalContent_map fun _ _ => SocketAddrWrapper.canonical_serializeAll _
  · exact Bencode.canonicalContent_map fun _ _ => .bytes _
  · exact Bencode.canonicalContent_map fun _ _ => canonical_i64 _
  · exact Bencode.canonicalContent_map fun _ _ => .bytes _
  · exact Bencode.canonicalContent_map fun _ _ => .bytes _
  · exact Bencode.canonicalContent_map fun _ _ => canonical_u16 _
  · exact Bencode.canonicalContent_map fun _ _ => .bytes _
  · exact Bencode.canonicalContent_map fun _ _ => canonical_u64 _
  · exact fun _ impossible => absurd impossible List.not_mem_nil

theorem serialize_writable {self : KResponse} (writable : self.Writable) :
    Exists fun value => self.serialize = some value ∧ value.Canonical ∧
      forall stray, deserialize stray value = some self := by
  rw [serialize]
  cases present : self.nodes with
  | none =>
      have member : (utf8 "nodes", none) ∈ self.fields none := by
        simp only [fields, List.mem_cons, true_or, or_true]
      refine ⟨_, rfl, self.canonical_fields Bencode.canonicalContent_none,
        fun stray => ofEntries_fields stray writable ?_⟩
      rw [optionalField, Bencode.field_entriesOf (self.nodup_keys none) member, present]
  | some nodes =>
      rcases CompactIPv4NodeInfo.serialize_ipv4 (writable.ipv4 nodes present) with
        ⟨value, written, canonical, back⟩
      have member : (utf8 "nodes", some value) ∈ self.fields (some value) := by
        simp only [fields, List.mem_cons, true_or, or_true]
      refine ⟨record (self.fields (some value)), ?_,
        self.canonical_fields (Bencode.canonicalContent_some canonical),
        fun stray => ofEntries_fields stray writable ?_⟩
      · simp only [written, Option.map_some]
      · rw [optionalField, Bencode.field_entriesOf (self.nodup_keys (some value)) member, present]
        change (CompactIPv4NodeInfo.deserialize _ value).map some = _
        rw [back]
        rfl

end KResponse

/-! ## Whole messages -/

namespace KMessage

/-- The declared fields in the order of the source. -/
def keys : List Bytes :=
  [utf8 "t", utf8 "y", utf8 "q", utf8 "a", utf8 "r", utf8 "e", utf8 "ip", utf8 "ro", utf8 "v"]

def fields (self : KMessage) (response : Option Value) : List (Bytes × Option Value) :=
  [(utf8 "t", some (.bytes self.transactionId)),
    (utf8 "y", some (string self.messageType)),
    (utf8 "q", self.queryMethod.map string),
    (utf8 "a", self.arguments.map MessageArgs.serialize),
    (utf8 "r", response),
    (utf8 "e", self.error.map Error.serialize),
    (utf8 "ip", self.requestorIp.map SocketAddrWrapper.serialize),
    (utf8 "ro", self.readOnly.map intFromBool),
    (utf8 "v", self.version.map .bytes)]

def serialize (self : KMessage) : Option Value :=
  match self.response with
  | none => some (record (self.fields none))
  | some response => response.serialize.map fun response => record (self.fields (some response))

def ofEntries (stray : Stray) (entries : List (Bytes × Value)) : Option KMessage := do
  let transactionId ← optionalField entries (utf8 "t") (asBytes (stray [utf8 "t"]))
  let messageType ← requiredField entries (utf8 "y") (asString (stray [utf8 "y"]))
  let queryMethod ← optionalField entries (utf8 "q") (asString (stray [utf8 "q"]))
  let arguments ← optionalField entries (utf8 "a") (MessageArgs.deserialize (stray.under (utf8 "a")))
  let response ← optionalField entries (utf8 "r") (KResponse.deserialize (stray.under (utf8 "r")))
  let error ← optionalField entries (utf8 "e") (Error.deserialize (stray [utf8 "e"]))
  let requestorIp ← optionalField entries (utf8 "ip") (SocketAddrWrapper.deserialize (stray [utf8 "ip"]))
  let readOnly ← optionalField entries (utf8 "ro") boolFromInt
  let version ← optionalField entries (utf8 "v") (asBytes (stray [utf8 "v"]))
  some
    { transactionId := transactionId.getD []
      messageType, queryMethod, arguments, response, error, requestorIp, readOnly, version }

/-- A derived reader also takes a list, whose items are the fields in order. -/
def deserialize (stray : Stray) : Value -> Option KMessage
  | .dict entries => ofEntries stray entries
  | .list items => if items.length ≤ keys.length then ofEntries stray (keys.zip items) else none
  | _ => none

structure Writable (message : KMessage) : Prop where
  response : forall response, message.response = some response -> response.Writable
  plain : forall requestorIp, message.requestorIp = some requestorIp -> requestorIp.Plain

theorem nodup_keys (self : KMessage) (response : Option Value) :
    ((self.fields response).map Prod.fst).Nodup := by
  change keys.Nodup
  decide

private theorem ofEntries_fields (stray : Stray) {self : KMessage} (writable : self.Writable) {content : Option Value}
    (response : optionalField (entriesOf (self.fields content)) (utf8 "r")
        (KResponse.deserialize (stray.under (utf8 "r"))) =
      some self.response) : ofEntries stray (entriesOf (self.fields content)) = some self := by
  have keys := self.nodup_keys content
  have transactionId : optionalField (entriesOf (self.fields content)) (utf8 "t") (asBytes (stray [utf8 "t"])) =
      some (some self.transactionId) := by
    have member : (utf8 "t", some (Value.bytes self.transactionId)) ∈ self.fields content := by
      simp only [fields, List.mem_cons, true_or]
    rw [optionalField, Bencode.field_entriesOf keys member]
    rfl
  have messageType : requiredField (entriesOf (self.fields content)) (utf8 "y") (asString (stray [utf8 "y"])) =
      some self.messageType :=
    Bencode.requiredField_entriesOf keys (by simp only [fields, List.mem_cons, true_or, or_true])
      (asString_string _ self.messageType)
  have queryMethod : optionalField (entriesOf (self.fields content)) (utf8 "q") (asString (stray [utf8 "q"])) =
      some self.queryMethod :=
    Bencode.optionalField_entriesOf keys (by simp only [fields, List.mem_cons, true_or, or_true])
      fun _ _ => asString_string _ _
  have arguments : optionalField (entriesOf (self.fields content)) (utf8 "a")
      (MessageArgs.deserialize (stray.under (utf8 "a"))) =
      some self.arguments :=
    Bencode.optionalField_entriesOf keys (by simp only [fields, List.mem_cons, true_or, or_true])
      fun _ _ => MessageArgs.deserialize_serialize _ _
  have error : optionalField (entriesOf (self.fields content)) (utf8 "e") (Error.deserialize (stray [utf8 "e"])) =
      some self.error :=
    Bencode.optionalField_entriesOf keys (by simp only [fields, List.mem_cons, true_or, or_true])
      fun _ _ => Error.deserialize_serialize _ _
  have requestorIp : optionalField (entriesOf (self.fields content)) (utf8 "ip")
      (SocketAddrWrapper.deserialize (stray [utf8 "ip"])) =
      some self.requestorIp :=
    Bencode.optionalField_entriesOf keys (by simp only [fields, List.mem_cons, true_or, or_true])
      fun requestorIp present => SocketAddrWrapper.deserialize_serialize _ (writable.plain requestorIp present)
  have readOnly : optionalField (entriesOf (self.fields content)) (utf8 "ro") boolFromInt = some self.readOnly :=
    Bencode.optionalField_entriesOf keys (by simp only [fields, List.mem_cons, true_or, or_true])
      fun _ _ => boolFromInt_intFromBool _
  have version : optionalField (entriesOf (self.fields content)) (utf8 "v") (asBytes (stray [utf8 "v"])) =
      some self.version :=
    Bencode.optionalField_entriesOf keys (by simp only [fields, List.mem_cons, true_or, or_true])
      fun _ _ => asBytes_bytes _ _
  simp only [ofEntries, transactionId, messageType, queryMethod, arguments, response, error, requestorIp,
    readOnly, version, Option.bind_eq_bind, Option.bind_some, Option.getD_some]

private theorem canonical_fields (self : KMessage) {content : Option Value}
    (response : CanonicalContent content) : (record (self.fields content)).Canonical := by
  apply Bencode.canonical_record_of_contents (self.nodup_keys content)
  simp only [fields, List.forall_mem_cons]
  refine ⟨?_, ?_, ?_, ?_, response, ?_, ?_, ?_, ?_, ?_⟩
  · exact Bencode.canonicalContent_some (.bytes _)
  · exact Bencode.canonicalContent_some (canonical_string _)
  · exact Bencode.canonicalContent_map fun _ _ => canonical_string _
  · exact Bencode.canonicalContent_map fun _ _ => MessageArgs.canonical_serialize _
  · exact Bencode.canonicalContent_map fun _ _ => Error.canonical_serialize _
  · exact Bencode.canonicalContent_map fun _ _ => SocketAddrWrapper.canonical_serialize _
  · exact Bencode.canonicalContent_map fun _ _ => canonical_intFromBool _
  · exact Bencode.canonicalContent_map fun _ _ => .bytes _
  · exact fun _ impossible => absurd impossible List.not_mem_nil

/-- Reading inverts writing. -/
theorem serialize_writable {self : KMessage} (writable : self.Writable) :
    Exists fun value => self.serialize = some value ∧ value.Canonical ∧
      forall stray, deserialize stray value = some self := by
  rw [serialize]
  cases present : self.response with
  | none =>
      have member : (utf8 "r", none) ∈ self.fields none := by
        simp only [fields, List.mem_cons, true_or, or_true]
      refine ⟨_, rfl, self.canonical_fields Bencode.canonicalContent_none,
        fun stray => ofEntries_fields stray writable ?_⟩
      rw [optionalField, Bencode.field_entriesOf (self.nodup_keys none) member, present]
  | some response =>
      rcases KResponse.serialize_writable (writable.response response present) with
        ⟨value, written, canonical, back⟩
      have member : (utf8 "r", some value) ∈ self.fields (some value) := by
        simp only [fields, List.mem_cons, true_or, or_true]
      refine ⟨record (self.fields (some value)), ?_,
        self.canonical_fields (Bencode.canonicalContent_some canonical),
        fun stray => ofEntries_fields stray writable ?_⟩
      · simp only [written, Option.map_some]
      · rw [optionalField, Bencode.field_entriesOf (self.nodup_keys (some value)) member, present]
        change (KResponse.deserialize _ value).map some = _
        rw [back]
        rfl

end KMessage

end Kmsg
end DhtExplorer
