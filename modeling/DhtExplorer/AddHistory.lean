import DhtExplorer.Lookup

namespace DhtExplorer

/-!
# Which address a table keeps

A table that is only added to is followed together with the contacts it was given.
A contact whose id is stored already moves to the end of its bucket, but the record
that moves is the stored one.  So the table keeps the address it heard first, and a
later one is lost unless the id was not stored when it came.
-/

/-- A table and the contacts that were added to it, in this order. -/
structure AddHistory where
  table : Chain
  added : List NodeInfo

namespace AddHistory

def start (own : U160) (kSize : UInt8) : AddHistory := ⟨Bucket.root own kSize, []⟩

def step (self : AddHistory) (node : NodeInfo) : Option AddHistory :=
  (Bucket.add self.table node).map fun table => ⟨table, self.added ++ [node]⟩

/-- The contact of the most recent call for an id. -/
def latest (self : AddHistory) (id : U160) : Option NodeInfo :=
  self.added.reverse.find? fun node => node.id == id

/-- Every contact that is stored, or handed out by a lookup, is the most recent one
with its id. -/
structure KeepsLatest (history : AddHistory) : Prop where
  stored : forall node, node ∈ Bucket.stored history.table -> history.latest node.id = some node
  lookup : forall target nodes, Bucket.lookup history.table target = some nodes ->
    forall node, node ∈ nodes -> history.latest node.id = some node

/-- If the id is stored, it is stored with this address. -/
def SameAddress (self : AddHistory) (node : NodeInfo) : Prop :=
  forall other, other ∈ Bucket.stored self.table -> other.id = node.id -> other = node

variable {own : U160} {kSize : UInt8} {self next : AddHistory} {node : NodeInfo}

theorem KeepsLatest.of_stored
    (stored : forall node, node ∈ Bucket.stored self.table -> self.latest node.id = some node) : KeepsLatest self where
  stored := stored
  lookup := fun _ _ found node member => stored node (Bucket.mem_stored_of_lookup found node member)

theorem keepsLatest_start (own : U160) (kSize : UInt8) : KeepsLatest (start own kSize) :=
  .of_stored fun _ member => absurd member List.not_mem_nil

/-- The invariant that every call keeps. -/
theorem live_step (live : Live own kSize 0 self.table) (stepped : self.step node = some next) :
    Live own kSize 0 next.table := by
  rcases Option.map_eq_some_iff.mp stepped with ⟨table, added, rfl⟩
  rcases add_spec live node with ⟨table', addedToo, _, live', _⟩
  rw [added, Option.some.injEq] at addedToo
  exact addedToo ▸ live'

theorem latest_concat (self : AddHistory) (table : Chain) (node : NodeInfo) (id : U160) :
    latest ⟨table, self.added ++ [node]⟩ id = if node.id = id then some node else self.latest id := by
  rw [latest, List.reverse_append, List.reverse_singleton, List.singleton_append, List.find?_cons]
  by_cases same : node.id = id
  · rw [if_pos same, beq_iff_eq.mpr same]
  · rw [if_neg same, beq_eq_false_iff_ne.mpr same]
    rfl

/-- Where the latest contacts are kept, one call keeps them exactly if it brings no
new address for a stored id. -/
theorem sameAddress_iff (live : Live own kSize 0 self.table) (keeps : KeepsLatest self) (node : NodeInfo) :
    SameAddress self node <-> forall next, self.step node = some next -> KeepsLatest next := by
  rcases add_spec live node with ⟨table, added, _, _, outcome⟩
  have stepped : self.step node = some ⟨table, self.added ++ [node]⟩ := by
    rw [step, added]
    rfl
  have others : forall {stored : NodeInfo}, stored.id ≠ node.id -> stored ∈ Bucket.stored self.table ->
      latest ⟨table, self.added ++ [node]⟩ stored.id = some stored := by
    intro stored different member
    rw [latest_concat, if_neg different.symm]
    exact keeps.stored stored member
  have itself : latest ⟨table, self.added ++ [node]⟩ node.id = some node := by
    rw [latest_concat, if_pos rfl]
  constructor
  · intro sameAddress next taken
    rw [stepped, Option.some.injEq] at taken
    subst taken
    apply KeepsLatest.of_stored
    intro stored member
    have known : stored = node ∨ stored ∈ Bucket.stored self.table := by
      cases outcome with
      | known _ perm => exact Or.inr (perm.mem_iff.mp member)
      | kept _ _ perm => exact List.mem_cons.mp (perm.mem_iff.mp member)
      | refused _ _ perm => exact Or.inr (perm.mem_iff.mp member)
    rcases known with rfl | before
    · exact itself
    · by_cases same : stored.id = node.id
      · rw [sameAddress stored before same]
        exact itself
      · exact others same before
  · intro kept other member same
    have later := (kept _ stepped).stored other
    cases outcome with
    | known _ perm =>
        have mine := later (perm.mem_iff.mpr member)
        rw [same, itself, Option.some.injEq] at mine
        exact mine.symm
    | kept absent _ _ => exact absurd (List.mem_map.mpr ⟨other, member, same⟩) absent
    | refused absent _ _ => exact absurd (List.mem_map.mpr ⟨other, member, same⟩) absent

end AddHistory

/-- Throughout a sequence of calls every stored contact has the address of the most
recent call for its id exactly when no call brings another address for an id that
is stored. -/
theorem keeps_latest_iff (own : U160) (kSize : UInt8) (adds : List NodeInfo) :
    PartialRun.Always AddHistory.step AddHistory.KeepsLatest (AddHistory.start own kSize) adds <->
      PartialRun.Permitted AddHistory.step AddHistory.SameAddress (AddHistory.start own kSize) adds :=
  PartialRun.always_iff_permitted (fun _ _ _ live stepped => AddHistory.live_step live stepped)
    (fun _ node live keeps => AddHistory.sameAddress_iff live keeps node) (Live.root own kSize)
    (AddHistory.keepsLatest_start own kSize)

namespace MovedContact

def before : NodeInfo := ⟨.new 0x80000000000000000000000000000000 0, .v4 0x0a000001 6881⟩

def after : NodeInfo := ⟨before.id, .v4 0x0a000002 6881⟩

end MovedContact

open MovedContact in
/-- A contact that moved is looked up under its old address. -/
theorem moved_contact_not_updated :
    Exists fun history => PartialRun.run AddHistory.step (AddHistory.start .min 8) [before, after] = some history ∧
      history.latest before.id = some after ∧ Bucket.stored history.table = [before] ∧
      Bucket.lookup history.table before.id = some [before] ∧ ¬history.KeepsLatest := by
  have run : (PartialRun.run AddHistory.step (AddHistory.start .min 8) [before, after]).map
      (fun history => (history.latest before.id, Bucket.stored history.table,
        Bucket.lookup history.table before.id)) = some (some after, [before], some [before]) := by
    decide +kernel
  rcases Option.map_eq_some_iff.mp run with ⟨history, ran, outcome⟩
  rcases Prod.mk.inj outcome with ⟨latest, rest⟩
  rcases Prod.mk.inj rest with ⟨stored, found⟩
  refine ⟨history, ran, latest, stored, found, fun keeps => ?_⟩
  have kept := keeps.stored before (stored ▸ List.mem_cons_self)
  rw [latest] at kept
  exact absurd (Option.some.inj kept) (by decide)

end DhtExplorer
