import DhtExplorer.Kmsg.Wrappers
import DhtExplorer.Library.BencodeText
import DhtExplorer.TableRuns

namespace DhtExplorer

open BigEndian (Bytes)
open Bencode (Value Codec)

/-!
# The table file

A saved table is a list: the own id, the bucket size, the number of buckets, and
the contacts of every bucket with the deepest bucket first.  The reader counts
the bucket indexes down from the number of buckets and puts every bucket it has
read behind the next one, so the last list of contacts becomes the first bucket.

What a file loses of an address is its flow information and its scope id.  A
table without any is read back as it was.
-/

/-! ## Contacts -/

namespace NodeInfo

def serialize (self : NodeInfo) : Value :=
  .bytes (self.id.toBeBytes ++ self.addr.ip.octets ++ u16ToBeBytes self.addr.port)

def deserialize (stray : Value -> Option Bytes) (value : Value) : Option NodeInfo :=
  (Kmsg.asBytes stray value).bind fun text =>
    let ip :=
      match text.length with
      | 26 => some (IpAddr.v4OfOctets (text.drop 20))
      | 38 => some (IpAddr.v6OfOctets (text.drop 20))
      | _ => none
    ip.map fun ip =>
      { id := U160.fromBeBytes (text.take 20)
        addr := SocketAddr.new ip (u16FromBeBytes (text.drop (text.length - 2))) }

def plain (self : NodeInfo) : NodeInfo := { self with addr := self.addr.plain }

/-- A record of twenty-six or thirty-eight bytes is read as its id, address and port. -/
theorem deserialize_serialize (stray : Value -> Option Bytes) (self : NodeInfo) :
    deserialize stray self.serialize = some self.plain := by
  have last : (self.id.toBeBytes ++ self.addr.ip.octets ++ u16ToBeBytes self.addr.port).length - 2 =
      20 + self.addr.ip.octets.length := by
    rw [length_record]
    omega
  rw [deserialize, serialize, Kmsg.asBytes, Option.bind_some, take_record, drop_record, drop_record_port _ _ _ last,
    length_record, U160.fromBeBytes_toBeBytes, u16FromBeBytes_toBeBytes]
  cases ipEq : self.addr.ip with
  | v4 ip =>
      have octetsLength : (IpAddr.v4 ip).octets.length = 4 := BigEndian.length_encode _ _
      rw [octetsLength, IpAddr.v4OfOctets_octets, <- ipEq]
      rfl
  | v6 ip =>
      have octetsLength : (IpAddr.v6 ip).octets.length = 16 := BigEndian.length_encode _ _
      rw [octetsLength, IpAddr.v6OfOctets_octets, <- ipEq]
      rfl

theorem plain_eq {self : NodeInfo} (plain : self.addr.Plain) : self.plain = self := by
  rw [NodeInfo.plain, plain.plain_eq]

end NodeInfo

/-! ## The writer -/

namespace Bucket

def serializeNodes (nodes : List NodeInfo) : Value := .list (nodes.map NodeInfo.serialize)

def serializeU8 (number : UInt8) : Value := .int number.toNat

/-- The depth has sixteen bits and the bucket index eight, so it never overflows. -/
def serDf : Chain -> UInt16 -> List Value
  | [], _ => []
  | [b], depth => [Kmsg.u16 depth, serializeNodes b.nodes]
  | b :: next, depth => serDf next (depth + 1) ++ [serializeNodes b.nodes]

/-- The own id and the bucket size are those of the first bucket. -/
def serialize : Chain -> Value
  | [] => .list []
  | self :: next => .list (Kmsg.serializeU160 self.ownId :: serializeU8 self.kSize :: serDf (self :: next) 1)

/-! ## The reader -/

/-- Reading fails with an error, which the router takes for a missing file, or
with a panic. -/
inductive LoadError where
  | refused
  | panics
deriving DecidableEq, Repr

/-- `seq.next_element()?.unwrap()`. -/
def nextElement {α : Type} (read : Value -> Option α) : List Value -> Except LoadError (α × List Value)
  | [] => .error .panics
  | item :: rest =>
      match read item with
      | some content => .ok (content, rest)
      | none => .error .refused

def deserializeNodes (stray : Value -> Option Bytes) : Value -> Option (List NodeInfo)
  | .list items => items.mapM (NodeInfo.deserialize stray)
  | _ => none

/-- The loop over the remaining elements.  Counting below zero panics. -/
def readBuckets (stray : Value -> Option Bytes) (ownId : U160) (kSize : UInt8) :
    UInt8 -> List Value -> Except LoadError (List Bucket)
  | _, [] => .ok []
  | bucketIndex, item :: rest =>
      match deserializeNodes stray item with
      | none => .error .refused
      | some nodes =>
          if bucketIndex = 0 then .error .panics
          else
            (readBuckets stray ownId kSize (bucketIndex - 1) rest).map fun deser =>
              { ownId := ownId, kSize := kSize, bucketIndex := bucketIndex - 1, nodes := nodes } :: deser

/-- Every bucket becomes the next one of the bucket read after it. -/
def reduceBuckets : List Bucket -> Except LoadError Chain
  | [] => .error .panics
  | deepest :: rest => .ok (rest.foldl (fun child parent => parent :: child) [deepest])

def visitSeq (stray : Value -> Option Bytes) (seq : List Value) : Except LoadError Chain := do
  let (ownId, seq) ← nextElement (Kmsg.deserializeU160 stray) seq
  let (kSize, seq) ← nextElement Kmsg.asU8 seq
  let (bucketIndex, seq) ← nextElement Kmsg.asU8 seq
  let deser ← readBuckets stray ownId kSize bucketIndex seq
  reduceBuckets deser

def deserialize (stray : Value -> Option Bytes) : Value -> Except LoadError Chain
  | .list seq => visitSeq stray seq
  | _ => .error .refused

/-- What `save_to_file` leaves in the file. -/
def saveToFile (codec : Codec) (table : Chain) : Bytes := codec.toVec (serialize table)

/-- A file that cannot be opened is absent here. -/
def loadFromFile (codec : Codec) (file : Option Bytes) : Except LoadError Chain :=
  match file with
  | some text =>
      match codec.fromSlice text with
      | some value => deserialize (codec.stray text []) value
      | none => .error .refused
  | none => .error .refused

/-! ## Reading what was written -/

/-- The bucket as it comes back from a file. -/
def plain (self : Bucket) : Bucket := { self with nodes := self.nodes.map NodeInfo.plain }

theorem deserializeNodes_serializeNodes (stray : Value -> Option Bytes) (nodes : List NodeInfo) :
    deserializeNodes stray (serializeNodes nodes) = some (nodes.map NodeInfo.plain) := by
  change (nodes.map NodeInfo.serialize).mapM (NodeInfo.deserialize stray) = _
  induction nodes with
  | nil => rfl
  | cons node rest ih =>
      rw [List.map_cons, List.mapM_cons, NodeInfo.deserialize_serialize, ih]
      rfl

/-- The writer emits the number of buckets and then their contacts, deepest first. -/
theorem serDf_cons (self : Bucket) (next : Chain) (depth : UInt16) :
    serDf (self :: next) depth =
      Kmsg.u16 (depth + UInt16.ofNat next.length) ::
        (self :: next).reverse.map fun bucket => serializeNodes bucket.nodes := by
  induction next generalizing self depth with
  | nil =>
      have same : depth + UInt16.ofNat ([] : Chain).length = depth := UInt16.add_zero depth
      rw [same]
      rfl
  | cons child next ih =>
      have deeper : depth + 1 + UInt16.ofNat next.length = depth + UInt16.ofNat (child :: next).length := by
        rw [List.length_cons, UInt16.ofNat_add, UInt16.add_assoc, UInt16.add_comm 1]
        rfl
      have passed : serDf (self :: child :: next) depth =
          serDf (child :: next) (depth + 1) ++ [serializeNodes self.nodes] := rfl
      rw [passed, ih, deeper, List.reverse_cons (a := self), List.map_append]
      rfl

/-- Indexes that count down are read back as they were. -/
theorem readBuckets_serializeNodes (stray : Value -> Option Bytes) {own : U160} {kSize bucketIndex : UInt8}
    {deepestFirst : List Bucket}
    (uniform : forall bucket, bucket ∈ deepestFirst -> bucket.ownId = own ∧ bucket.kSize = kSize)
    (countsDown : forall (position : Nat) (bucket : Bucket), deepestFirst[position]? = some bucket ->
      bucket.bucketIndex.toNat + position + 1 = bucketIndex.toNat) :
    readBuckets stray own kSize bucketIndex (deepestFirst.map fun bucket => serializeNodes bucket.nodes) =
      .ok (deepestFirst.map plain) := by
  induction deepestFirst generalizing bucketIndex with
  | nil => rfl
  | cons bucket rest ih =>
      have here : bucket.bucketIndex.toNat + 0 + 1 = bucketIndex.toNat := countsDown 0 bucket rfl
      have positive : bucketIndex ≠ 0 := by
        intro zero
        rw [zero] at here
        exact Nat.succ_ne_zero _ here
      have before : bucketIndex - 1 = bucket.bucketIndex := by
        apply UInt8.toNat_inj.mp
        rw [UInt8.toNat_sub_of_le _ _ (by rw [UInt8.le_iff_toNat_le]; change 1 ≤ _; omega)]
        change bucketIndex.toNat - 1 = _
        omega
      have shifted : forall (position : Nat) (other : Bucket), rest[position]? = some other ->
          other.bucketIndex.toNat + position + 1 = (bucketIndex - 1).toNat := by
        intro position other found
        have next := countsDown (position + 1) other found
        rw [before]
        omega
      have later := ih (fun other member => uniform other (List.mem_cons_of_mem _ member)) shifted
      rcases uniform bucket List.mem_cons_self with ⟨rfl, rfl⟩
      rw [List.map_cons, readBuckets, deserializeNodes_serializeNodes]
      change (if bucketIndex = 0 then _ else _) = _
      rw [if_neg positive, later, before]
      rfl

theorem nextElement_cons {α : Type} {read : Value -> Option α} {item : Value} {content : α} {rest : List Value}
    (itemRead : read item = some content) : nextElement read (item :: rest) = .ok (content, rest) := by
  rw [nextElement, itemRead]

theorem visitSeq_cons {stray : Value -> Option Bytes} {own : U160} {kSize bucketIndex : UInt8}
    {ownId size count : Value} (rest : List Value) (ownRead : Kmsg.deserializeU160 stray ownId = some own)
    (sizeRead : Kmsg.asU8 size = some kSize) (countRead : Kmsg.asU8 count = some bucketIndex) :
    visitSeq stray (ownId :: size :: count :: rest) =
      (readBuckets stray own kSize bucketIndex rest).bind reduceBuckets := by
  rw [visitSeq, nextElement_cons ownRead]
  change (nextElement Kmsg.asU8 (size :: count :: rest)).bind _ = _
  rw [nextElement_cons sizeRead]
  change (nextElement Kmsg.asU8 (count :: rest)).bind _ = _
  rw [nextElement_cons countRead]
  rfl

theorem reduceBuckets_reverse {table : Chain} (nonempty : table ≠ []) : reduceBuckets table.reverse = .ok table := by
  cases reversed : table.reverse with
  | nil => exact absurd (List.reverse_eq_nil_iff.mp reversed) nonempty
  | cons deepest rest =>
      rw [reduceBuckets, List.foldl_flip_cons_eq_append', <- List.reverse_cons, <- reversed, List.reverse_reverse]

end Bucket

/-! ## The round trip -/

variable {own : U160} {kSize : UInt8} {table : Chain}

/-- A table has at most one bucket for each of the indexes 0 to 159. -/
theorem Live.length_le {depth : Nat} {chain : Chain} (live : Live own kSize depth chain) :
    depth + chain.length ≤ 160 := by
  induction live with
  | last placed => exact Nat.succ_le_succ placed.depth_le
  | split placed differs behind ih =>
      rw [List.length_cons]
      omega

/-- Reading the elements that the writer emits rebuilds the chain. -/
theorem Live.deserialize_serialize (stray : Value -> Option Bytes) (live : Live own kSize 0 table) :
    Bucket.deserialize stray (Bucket.serialize table) = .ok (table.map Bucket.plain) := by
  have bound := live.length_le
  have settings : forall bucket, bucket ∈ table -> bucket.ownId = own ∧ bucket.kSize = kSize := by
    intro bucket member
    rcases List.getElem?_of_mem member with ⟨depth, found⟩
    exact live.wellPlaced.settings_eq depth bucket found
  cases table with
  | nil => exact absurd rfl live.nonempty
  | cons self next =>
      rcases settings self List.mem_cons_self with ⟨ownId, selfSize⟩
      have count : (1 : UInt16) + UInt16.ofNat next.length = UInt16.ofNat (self :: next).length := by
        rw [List.length_cons, UInt16.ofNat_add, UInt16.add_comm]
        rfl
      have fits : (self :: next).length < 2 ^ 8 := by omega
      have countToNat : (UInt16.ofNat (self :: next).length).toNat = (self :: next).length :=
        UInt16.toNat_ofNat_of_lt' (Nat.lt_trans fits (by decide))
      have countRead : Kmsg.asU8 (Kmsg.u16 (UInt16.ofNat (self :: next).length)) =
          some (UInt8.ofNat (self :: next).length) := by
        rw [Kmsg.asU8, Kmsg.u16, countToNat, Kmsg.asUnsigned_natCast fits]
        rfl
      have sizeRead : Kmsg.asU8 (Bucket.serializeU8 kSize) = some kSize := by
        rw [Kmsg.asU8, Bucket.serializeU8, Kmsg.asUnsigned_natCast kSize.toNat_lt, Option.map_some, UInt8.ofNat_toNat]
      have deepestFirst : forall (position : Nat) (bucket : Bucket), (self :: next).reverse[position]? = some bucket ->
          bucket.bucketIndex.toNat + position + 1 = (UInt8.ofNat (self :: next).length).toNat := by
        intro position bucket found
        have inside : position < (self :: next).length := by
          rw [<- List.length_reverse]
          exact (List.getElem?_eq_some_iff.mp found).1
        rw [List.getElem?_reverse inside] at found
        have index := (live.wellPlaced.bucketIndex_eq _ bucket found).1
        rw [index, UInt8.toNat_ofNat_of_lt' fits]
        omega
      have uniform : forall bucket, bucket ∈ (self :: next).reverse -> bucket.ownId = own ∧ bucket.kSize = kSize :=
        fun bucket member => settings bucket (List.mem_reverse.mp member)
      have buckets := Bucket.readBuckets_serializeNodes stray uniform deepestFirst
      rw [Bucket.serialize, Bucket.serDf_cons, ownId, selfSize, count, Bucket.deserialize,
        Bucket.visitSeq_cons _ (Kmsg.deserializeU160_serializeU160 stray own) sizeRead countRead, buckets,
        List.map_reverse]
      exact Bucket.reduceBuckets_reverse (by simp)

/-- Nothing is lost of a table whose addresses are plain. -/
theorem Bucket.map_plain_eq {table : Chain} (plain : forall node, node ∈ Bucket.stored table -> node.addr.Plain) :
    table.map Bucket.plain = table := by
  have buckets : forall bucket, bucket ∈ table -> bucket.plain = bucket := by
    intro bucket member
    have nodes : bucket.nodes.map NodeInfo.plain = bucket.nodes.map id :=
      List.map_congr_left fun node inside =>
        NodeInfo.plain_eq (plain node (List.mem_flatMap.mpr ⟨bucket, member, inside⟩))
    rw [Bucket.plain, nodes, List.map_id]
  rw [List.map_congr_left (g := id) buckets, List.map_id]

theorem Bucket.canonical_serialize (table : Chain) : (Bucket.serialize table).Canonical := by
  cases table with
  | nil => exact .list fun _ member => absurd member List.not_mem_nil
  | cons self next =>
      have size : (Bucket.serializeU8 self.kSize).Canonical := by
        have bound := self.kSize.toNat_lt
        exact .int (by omega) (by omega)
      refine .list fun item member => ?_
      rw [Bucket.serDf_cons] at member
      rcases List.mem_cons.mp member with rfl | rest
      · exact .bytes _
      rcases List.mem_cons.mp rest with rfl | rest
      · exact size
      rcases List.mem_cons.mp rest with rfl | rest
      · exact Kmsg.canonical_u16 _
      · rcases List.mem_map.mp rest with ⟨bucket, _, rfl⟩
        refine .list fun record inside => ?_
        rcases List.mem_map.mp inside with ⟨node, _, rfl⟩
        exact .bytes _

theorem Live.loadFromFile_saveToFile (codec : Codec) (live : Live own kSize 0 table) :
    Bucket.loadFromFile codec (some (Bucket.saveToFile codec table)) = .ok (table.map Bucket.plain) := by
  rw [Bucket.loadFromFile, Bucket.saveToFile]
  rw [codec.faithful _ (Bucket.canonical_serialize table)]
  exact live.deserialize_serialize _

/-- Saving a table and loading the file gives the table, after any calls whose
addresses carry no more than an IP and a port. -/
theorem saved_table_loads (codec : Codec) (own : U160) (kSize : UInt8) (calls : List TableCall)
    (plain : forall node, TableCall.add node ∈ calls -> node.addr.Plain) :
    Exists fun table => Exists fun answers => Bucket.performAll own kSize calls = some (table, answers) ∧
      Bucket.loadFromFile codec (some (Bucket.saveToFile codec table)) = .ok table := by
  rcases performAll_origin own kSize calls with ⟨table, answers, performed, live, given⟩
  refine ⟨table, answers, performed, ?_⟩
  rw [live.loadFromFile_saveToFile codec, Bucket.map_plain_eq fun node member => plain node (given node member)]

namespace SavedTable

def ipv4 : NodeInfo := ⟨.new 0x80000000000000000000000000000000 0, .v4 0x7f000001 1337⟩

def ipv6 : NodeInfo := ⟨.new 0x40000000000000000000000000000000 0, .v6 1 1337 0 0⟩

def calls : List TableCall := [.add ipv4, .add ipv6, .remove ipv4.id]

end SavedTable

theorem saved_table_loads_both_families :
    (forall node, TableCall.add node ∈ SavedTable.calls -> node.addr.Plain) ∧
      Exists fun table => Exists fun answers =>
        Bucket.performAll U160.min 2 SavedTable.calls = some (table, answers) ∧
        Bucket.loadFromFile Bencode.textCodec (some (Bucket.saveToFile Bencode.textCodec table)) = .ok table := by
  have plain : forall node, TableCall.add node ∈ SavedTable.calls -> node.addr.Plain := by
    intro node member
    simp only [SavedTable.calls, List.mem_cons, TableCall.add.injEq, reduceCtorEq, List.not_mem_nil, or_false] at member
    rcases member with rfl | rfl <;> decide
  exact ⟨plain, saved_table_loads Bencode.textCodec U160.min 2 SavedTable.calls plain⟩

end DhtExplorer
