import DhtExplorer.Lookup

namespace DhtExplorer

/-!
# The router

The router is the bucket chain behind a list of banned ids.  There is no result
where the chain panics.
-/

def K_SIZE : UInt8 := 8

structure Router where
  buckets : Chain
  bannedIds : List U160

namespace Router

/-- A router without a saved table. -/
def new (node : NodeInfo) : Router := ⟨Bucket.root node.id K_SIZE, []⟩

def add (self : Router) (node : NodeInfo) : Option Router :=
  if self.bannedIds.contains node.id then some self
  else (Bucket.add self.buckets node).map fun buckets => { self with buckets := buckets }

def lookup (self : Router) (id : U160) : Option (List NodeInfo) := Bucket.lookup self.buckets id

def BAN_COUNT : Nat := 100

/-- The ban list after `push_back`.  The oldest entry leaves when the list is full. -/
def pushBan (bannedIds : List U160) (id : U160) : List U160 :=
  let bnd := bannedIds ++ [id]
  if bnd.length = BAN_COUNT then bnd.drop 1 else bnd

def banId (self : Router) (id : U160) : Option Router :=
  (Bucket.remove self.buckets id).map fun (buckets, _) =>
    { buckets := buckets, bannedIds := pushBan self.bannedIds id }

/-! ## A reachable router never panics -/

/-- The table is one that calls made from a root bucket.  Every router starts
with such a table, and changes it by such calls only. -/
def Reachable (self : Router) : Prop :=
  Exists fun own => Exists fun kSize => Exists fun calls => Exists fun answers =>
    Bucket.performAll own kSize calls = some (self.buckets, answers)

theorem reachable_new (node : NodeInfo) : (new node).Reachable := ⟨node.id, K_SIZE, [], [], rfl⟩

/-- The placement invariant, whatever the own id and the bucket size are. -/
def Sound (self : Router) : Prop :=
  Exists fun own => Exists fun kSize => Live own kSize 0 self.buckets

theorem Reachable.sound {self : Router} (reachable : self.Reachable) : self.Sound := by
  rcases reachable with ⟨own, kSize, calls, answers, performed⟩
  rcases performAll_live own kSize calls with ⟨table, _, same, live⟩
  rw [performed, Option.some.injEq, Prod.mk.injEq] at same
  exact ⟨own, kSize, same.1 ▸ live⟩

theorem Sound.add {self : Router} (sound : self.Sound) (node : NodeInfo) :
    Exists fun router => self.add node = some router ∧ router.Sound := by
  rcases sound with ⟨own, kSize, live⟩
  unfold Router.add
  split
  · exact ⟨self, rfl, own, kSize, live⟩
  · rcases add_spec live node with ⟨table, added, _, live', _⟩
    exact ⟨{ self with buckets := table }, by rw [added]; rfl, own, kSize, live'⟩

theorem Sound.lookup {self : Router} (sound : self.Sound) (id : U160) :
    Exists fun nodes => self.lookup id = some nodes := by
  rcases sound with ⟨own, kSize, live⟩
  rcases lookup_bounds live id with ⟨nodes, found, _⟩
  exact ⟨nodes, found⟩

end Router
end DhtExplorer
