import DhtExplorer.Router
import DhtExplorer.TableFile

namespace DhtExplorer

open BigEndian (Bytes)
open Bencode (Codec)

/-!
# Restarting from a table file

The own id of a node depends on its public address and on random bits, so it is
a new one at every start.  The table in a file was built around the id of the
node that saved it.  A router that is made from the file takes that id over, and
looks at its own node only when there is no file it can read.

A table may have gone through any number of files before it is saved.
-/

/-- `Router::new`.  There is no result where reading the file panics. -/
def Router.load (codec : Codec) (file : Option Bytes) (node : NodeInfo) : Option Router :=
  match Bucket.loadFromFile codec file with
  | .ok buckets => some ⟨buckets, []⟩
  | .error .refused => some (Router.new node)
  | .error .panics => none

/-- The id of the first bucket. -/
def Router.ownId (self : Router) : Option U160 := self.buckets.head?.map Bucket.ownId

/-- The tables a node can save: a new one, or the table it was started with, after
any calls. -/
inductive Savable (codec : Codec) (own : U160) (kSize : UInt8) : Chain -> Prop where
  | root : Savable codec own kSize (Bucket.root own kSize)
  | perform {table table' : Chain} {call : TableCall} {answer : Option Bool} (before : Savable codec own kSize table)
      (performed : Bucket.perform table call = some (table', answer)) : Savable codec own kSize table'
  | restart {table : Chain} {me : NodeInfo} {router : Router} (before : Savable codec own kSize table)
      (loaded : Router.load codec (some (Bucket.saveToFile codec table)) me = some router) :
      Savable codec own kSize router.buckets

/-- Every contact is where its common prefix with the id puts it. -/
def PlacedFor (id : U160) (table : Chain) : Prop :=
  forall (depth : Nat) (bucket : Bucket) node, table[depth]? = some bucket -> node ∈ bucket.nodes ->
    SharesPrefix id node.id depth ∧
      (depth + 1 < table.length -> id.getBit depth ≠ node.id.getBit depth)

variable {codec : Codec} {own : U160} {kSize : UInt8} {table : Chain}

/-! ## What a file does to a table -/

theorem Placed.plain {depth : Nat} {bucket : Bucket} (placed : Placed own kSize depth bucket) :
    Placed own kSize depth bucket.plain := by
  have ids : (bucket.nodes.map NodeInfo.plain).map NodeInfo.id = bucket.nodes.map NodeInfo.id := by
    rw [List.map_map]
    rfl
  refine placed.withNodes ?_ ?_ ?_
  · rw [List.length_map]
    exact placed.length_le
  · intro node member
    rcases List.mem_map.mp member with ⟨original, inside, rfl⟩
    exact placed.shares original inside
  · rw [ids]
    exact placed.nodup

theorem Live.plain {depth : Nat} {chain : Chain} (live : Live own kSize depth chain) :
    Live own kSize depth (chain.map Bucket.plain) := by
  induction live with
  | last placed => exact .last placed.plain
  | split placed differs behind ih =>
      refine .split placed.plain ?_ ih
      intro node member
      rcases List.mem_map.mp member with ⟨original, inside, rfl⟩
      exact differs original inside

theorem Live.router_load (codec : Codec) (live : Live own kSize 0 table) (me : NodeInfo) :
    Router.load codec (some (Bucket.saveToFile codec table)) me = some ⟨table.map Bucket.plain, []⟩ := by
  rw [Router.load, live.loadFromFile_saveToFile codec]

/-- No restart and no call loses the placement. -/
theorem Savable.live (savable : Savable codec own kSize table) : Live own kSize 0 table := by
  induction savable with
  | root => exact Live.root own kSize
  | @perform table table' call answer before performed ih =>
      rcases perform_live ih call with ⟨next, answerToo, performedToo, live⟩
      rw [performed, Option.some.injEq, Prod.mk.injEq] at performedToo
      exact performedToo.1 ▸ live
  | @restart table me router before loaded ih =>
      rw [ih.router_load codec me, Option.some.injEq] at loaded
      exact loaded ▸ ih.plain

theorem Live.placedFor (live : Live own kSize 0 table) : PlacedFor own table := by
  intro depth bucket node found member
  exact ⟨live.wellPlaced.shares depth bucket node found member,
    live.wellPlaced.differs depth bucket node found member⟩

theorem Live.ownId_eq (live : Live own kSize 0 table) : table.head?.map Bucket.ownId = some own := by
  cases live with
  | last placed => exact congrArg some placed.ownId_eq
  | split placed _ _ => exact congrArg some placed.ownId_eq

/-! ## The id after a restart -/

/-- A restarted router is the router of its node exactly when the table was built
for the id that the node has now. -/
theorem restart_iff (savable : Savable codec own kSize table) (me : NodeInfo) :
    Exists fun router => Router.load codec (some (Bucket.saveToFile codec table)) me = some router ∧
      ((router.ownId = some me.id ∧ PlacedFor me.id router.buckets) <-> own = me.id) := by
  have loaded := savable.live.plain
  refine ⟨⟨table.map Bucket.plain, []⟩, savable.live.router_load codec me, ?_⟩
  rw [Router.ownId, loaded.ownId_eq]
  constructor
  · rintro ⟨sameId, _⟩
    exact Option.some.inj sameId
  · rintro rfl
    exact ⟨rfl, loaded.placedFor⟩

namespace StaleTable

def addr : SocketAddr := .v4 0x7f000001 1337

/-- Belongs to the first bucket of a table around the id zero. -/
def contact : NodeInfo := ⟨.new 0x80000000000000000000000000000000 0, addr⟩

/-- The node that is started with the file, at another id. -/
def me : NodeInfo := ⟨.new 0xc0000000000000000000000000000000 0, addr⟩

/-- Eight contacts in the half of the own id and one in the other. -/
def calls : List TableCall :=
  (List.range 8).map (fun index => .add ⟨.new 0x40000000000000000000000000000000 (BitVec.ofNat 32 index), addr⟩) ++
    [.add contact]

def behind : Bucket where
  ownId := U160.min
  bucketIndex := 1
  kSize := K_SIZE
  nodes := [0, 7, 6, 5, 4, 3, 2, 1].map fun index => ⟨.new 0x40000000000000000000000000000000 index, addr⟩

def saved : Chain := [⟨U160.min, 0, K_SIZE, [contact]⟩, behind]

end StaleTable

theorem restart_iff_one_contact :
    Savable Bencode.textCodec U160.min K_SIZE [⟨U160.min, 0, K_SIZE, [StaleTable.contact]⟩] ∧
      Exists fun router =>
        Router.load Bencode.textCodec
          (some (Bucket.saveToFile Bencode.textCodec [⟨U160.min, 0, K_SIZE, [StaleTable.contact]⟩])) StaleTable.me =
            some router ∧
        ((router.ownId = some StaleTable.me.id ∧ PlacedFor StaleTable.me.id router.buckets) <->
          U160.min = StaleTable.me.id) := by
  have savable : Savable Bencode.textCodec U160.min K_SIZE [⟨U160.min, 0, K_SIZE, [StaleTable.contact]⟩] :=
    @Savable.perform _ _ _ _ _ (.add StaleTable.contact) none .root rfl
  exact ⟨savable, restart_iff savable StaleTable.me⟩

/-- The node takes the id zero over from the file, and its contact in the first
bucket belongs behind it now. -/
theorem restart_keeps_old_id :
    (Bucket.performAll U160.min K_SIZE StaleTable.calls).map Prod.fst = some StaleTable.saved ∧
      (Router.load Bencode.textCodec (some (Bucket.saveToFile Bencode.textCodec StaleTable.saved))
        StaleTable.me).map (fun router => (router.buckets, router.ownId)) = some (StaleTable.saved, some U160.min) ∧
      U160.min ≠ StaleTable.me.id ∧
      StaleTable.me.id.getBit 0 = StaleTable.contact.id.getBit 0 := by
  decide +kernel

end DhtExplorer
