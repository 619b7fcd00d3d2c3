import DhtExplorer.Library.TaskPool
import DhtExplorer.Restart

namespace DhtExplorer

open TaskPool (Pool)

/-!
# Adding and banning at the same time

`add` looks at the ban list and inserts afterwards, under another lock.
`ban_id` puts the id on the list and removes the contact afterwards.  Calls of
both run at the same time, so an id can be banned and removed between the two
parts of an `add`, which then stores a banned contact.

What holds in between is that the removal of every stored banned id is still
to come.  The insertions that break this are named exactly, and without them no
banned id is stored once all calls have returned.
-/

/-- What a call has still to do under its next lock. -/
inductive RouterFrame where
  | addCheck (node : NodeInfo)
  | addInsert (node : NodeInfo)
  | banPush (id : U160)
  | banRemove (id : U160)
deriving DecidableEq, Repr

abbrev RouterPool := Pool Router RouterFrame

/-- One critical section.  There is no result where the chain panics. -/
def RouterFrame.advance (router : Router) (_ : List RouterFrame) :
    RouterFrame -> Option (Router × List RouterFrame)
  | addCheck node => some (router, if router.bannedIds.contains node.id then [] else [addInsert node])
  | addInsert node => (Bucket.add router.buckets node).map fun buckets => ({ router with buckets := buckets }, [])
  | banPush id => some ({ router with bannedIds := Router.pushBan router.bannedIds id }, [banRemove id])
  | banRemove id => (Bucket.remove router.buckets id).map fun (buckets, _) => ({ router with buckets := buckets }, [])

/-- A call that has not taken its first lock yet. -/
inductive RouterCall where
  | add (node : NodeInfo)
  | banId (id : U160)
deriving DecidableEq, Repr

def RouterCall.frame : RouterCall -> RouterFrame
  | add node => .addCheck node
  | banId id => .banPush id

/-- The call in one piece. -/
def RouterCall.perform (router : Router) : RouterCall -> Option Router
  | add node => router.add node
  | banId id => router.banId id

def RouterPool.start (router : Router) (calls : List RouterCall) : RouterPool where
  shared := router
  tasks := calls.map fun call => [call.frame]

def RouterPool.run : RouterPool -> List Nat -> Option RouterPool := PartialRun.run (Pool.step RouterFrame.advance)

variable {own : U160} {kSize : UInt8} {router : Router} {frame : RouterFrame} {others : List RouterFrame}

/-! ## Calls without interference -/

/-- A call that nothing interrupts does what it does in one piece. -/
theorem RouterCall.alone (router router' : Router) (call : RouterCall)
    (performed : call.perform router = some router') :
    Exists fun schedule => RouterPool.run (RouterPool.start router [call]) schedule =
      some { shared := router', tasks := [[]] } := by
  cases call with
  | add node =>
      change (if router.bannedIds.contains node.id then _ else _) = _ at performed
      by_cases banned : node.id ∈ router.bannedIds
      · rw [if_pos (List.contains_iff_mem.mpr banned), Option.some.injEq] at performed
        subst performed
        refine ⟨[0], ?_⟩
        simp [RouterPool.run, RouterPool.start, PartialRun.run, Pool.step, RouterCall.frame, RouterFrame.advance, banned]
      · rw [if_neg fun listed => banned (List.contains_iff_mem.mp listed)] at performed
        rcases Option.map_eq_some_iff.mp performed with ⟨buckets, added, rfl⟩
        refine ⟨[0, 0], ?_⟩
        simp [RouterPool.run, RouterPool.start, PartialRun.run, Pool.step, RouterCall.frame, RouterFrame.advance, banned,
          added]
  | banId id =>
      rcases Option.map_eq_some_iff.mp performed with ⟨⟨buckets, found⟩, removed, rfl⟩
      refine ⟨[0, 0], ?_⟩
      simp [RouterPool.run, RouterPool.start, PartialRun.run, Pool.step, RouterCall.frame, RouterFrame.advance, removed]

/-! ## Bans that are still to be carried out -/

/-- Every banned id that is stored will be removed. -/
def BansPending (router : Router) (frames : List RouterFrame) : Prop :=
  forall id, id ∈ router.bannedIds -> id ∈ Bucket.storedIds router.buckets -> RouterFrame.banRemove id ∈ frames

def NoBannedStored (router : Router) : Prop :=
  forall id, id ∈ router.bannedIds -> id ∉ Bucket.storedIds router.buckets

/-- The table has room for another id with as long a common prefix. -/
def Router.HasRoom (router : Router) (id : U160) : Prop :=
  Exists fun self => router.buckets.head? = some self ∧
    classSize self.ownId (Bucket.stored router.buckets) id < self.kSize.toNat

/-- The next step inserts a contact whose ban has been carried out already. -/
def RouterFrame.LateInsertion (router : Router) (frames : List RouterFrame) : RouterFrame -> Prop
  | addInsert node =>
      node.id ∈ router.bannedIds ∧ banRemove node.id ∉ frames ∧ router.HasRoom node.id
  | _ => False

def LateInsertion (pool : RouterPool) (task : Nat) : Prop :=
  Exists fun frame => Exists fun callers =>
    pool.tasks[task]? = some (frame :: callers) ∧ frame.LateInsertion pool.shared pool.frames

/-! ## One step -/

theorem Router.mem_pushBan {bannedIds : List U160} {id other : U160} (member : other ∈ pushBan bannedIds id) :
    other ∈ bannedIds ∨ other = id := by
  have appended : other ∈ bannedIds ++ [id] := by
    change other ∈ (if (bannedIds ++ [id]).length = BAN_COUNT then _ else _) at member
    split at member
    · exact List.mem_of_mem_drop member
    · exact member
  rw [List.mem_append, List.mem_singleton] at appended
  exact appended

/-- The ids that are stored after an `add` with room for two in every bucket. -/
theorem AddOutcome.mem_ids {capacity : Nat} {before after : List NodeInfo} {node : NodeInfo} {id : U160}
    (outcome : AddOutcome own capacity before node after) (member : id ∈ after.map NodeInfo.id) :
    id ∈ before.map NodeInfo.id ∨ (id = node.id ∧ classSize own before node.id < capacity) := by
  cases outcome with
  | known _ perm => exact Or.inl ((perm.map NodeInfo.id).mem_iff.mp member)
  | refused _ _ perm => exact Or.inl ((perm.map NodeInfo.id).mem_iff.mp member)
  | kept _ room perm =>
      rcases List.mem_cons.mp ((perm.map NodeInfo.id).mem_iff.mp member) with new | old
      · exact Or.inr ⟨new, room⟩
      · exact Or.inl old

theorem AddOutcome.id_mem_of_room {capacity : Nat} {before after : List NodeInfo} {node : NodeInfo}
    (outcome : AddOutcome own capacity before node after) (roomForTwo : 2 ≤ capacity)
    (room : classSize own before node.id < capacity) : node.id ∈ after.map NodeInfo.id := by
  cases outcome with
  | known member perm => exact (perm.map NodeInfo.id).mem_iff.mpr member
  | refused _ full _ => exact absurd room (Nat.not_lt.mpr (full roomForTwo))
  | kept _ _ perm => exact (perm.map NodeInfo.id).mem_iff.mpr List.mem_cons_self

theorem Live.hasRoom_iff (live : Live own kSize 0 router.buckets) (id : U160) :
    router.HasRoom id <-> classSize own (Bucket.stored router.buckets) id < kSize.toNat := by
  have head : Exists fun self => router.buckets.head? = some self ∧ self.ownId = own ∧ self.kSize = kSize := by
    generalize router.buckets = chain at live
    cases live with
    | last placed => exact ⟨_, rfl, placed.ownId_eq, placed.kSize_eq⟩
    | split placed _ _ => exact ⟨_, rfl, placed.ownId_eq, placed.kSize_eq⟩
  rcases head with ⟨self, found, ownId, size⟩
  rw [Router.HasRoom, found]
  constructor
  · rintro ⟨other, same, room⟩
    cases same
    rwa [ownId, size] at room
  · intro room
    exact ⟨self, rfl, by rwa [ownId, size]⟩

theorem BansPending.of_perm {frames frames' : List RouterFrame} (perm : frames.Perm frames')
    (pending : BansPending router frames) : BansPending router frames' :=
  fun id banned stored => perm.mem_iff.mp (pending id banned stored)

theorem RouterFrame.LateInsertion.of_perm {frames frames' : List RouterFrame} (perm : frames.Perm frames')
    (late : frame.LateInsertion router frames) : frame.LateInsertion router frames' := by
  cases frame with
  | addInsert node => exact ⟨late.1, fun member => late.2.1 (perm.mem_iff.mpr member), late.2.2⟩
  | addCheck node => exact late
  | banPush id => exact late
  | banRemove id => exact late

/-- Every critical section can be entered, and keeps the placement. -/
theorem RouterFrame.advance_live (live : Live own kSize 0 router.buckets) (frame : RouterFrame)
    (frames : List RouterFrame) :
    Exists fun router' => Exists fun replacement =>
      frame.advance router frames = some (router', replacement) ∧ Live own kSize 0 router'.buckets := by
  cases frame with
  | addCheck node => exact ⟨router, _, rfl, live⟩
  | banPush id => exact ⟨_, _, rfl, live⟩
  | addInsert node =>
      rcases add_spec live node with ⟨table, added, _, live', _⟩
      refine ⟨{ router with buckets := table }, [], ?_, live'⟩
      rw [advance, added]
      rfl
  | banRemove id =>
      rcases remove_spec live (sharesPrefix_zero own id) with ⟨table, removed, live', _⟩
      refine ⟨{ router with buckets := table }, [], ?_, live'⟩
      rw [advance, removed]
      rfl

/-- A step that is no late insertion leaves a removal for every stored banned id. -/
theorem BansPending.step (live : Live own kSize 0 router.buckets) (pending : BansPending router (frame :: others))
    (inTime : ¬frame.LateInsertion router (frame :: others)) {frames : List RouterFrame} {router' : Router}
    {replacement : List RouterFrame} (advanced : frame.advance router frames = some (router', replacement)) :
    BansPending router' (replacement ++ others) := by
  intro id banned stored
  cases frame with
  | addCheck node =>
      cases advanced
      rcases List.mem_cons.mp (pending id banned stored) with same | later
      · cases same
      · exact List.mem_append_right _ later
  | addInsert node =>
      rcases Option.map_eq_some_iff.mp advanced with ⟨table, added, same⟩
      cases same
      rcases add_spec live node with ⟨_, addedToo, _, _, outcome⟩
      rw [added, Option.some.injEq] at addedToo
      subst addedToo
      have waiting : RouterFrame.banRemove id ∈ RouterFrame.addInsert node :: others := by
        rcases outcome.mem_ids stored with before | ⟨rfl, room⟩
        · exact pending id banned before
        · by_contra absent
          exact inTime ⟨banned, absent, (live.hasRoom_iff node.id).mpr room⟩
      rcases List.mem_cons.mp waiting with same | later
      · cases same
      · exact later
  | banPush pushed =>
      cases advanced
      rcases Router.mem_pushBan banned with before | rfl
      · rcases List.mem_cons.mp (pending id before stored) with same | later
        · cases same
        · exact List.mem_append_right _ later
      · exact List.mem_cons_self
  | banRemove removed =>
      rcases Option.map_eq_some_iff.mp advanced with ⟨⟨table, found⟩, taken, same⟩
      cases same
      rcases remove_spec live (sharesPrefix_zero own removed) with ⟨_, takenToo, _, ids⟩
      rw [taken, Option.some.injEq, Prod.mk.injEq] at takenToo
      rw [takenToo.1, ids, live.nodup.mem_erase_iff] at stored
      rcases List.mem_cons.mp (pending id banned stored.2) with same | later
      · cases same
        exact absurd rfl stored.1
      · exact later

/-- A late insertion stores an id that nothing will remove. -/
theorem RouterFrame.LateInsertion.exposes (live : Live own kSize 0 router.buckets) (roomForTwo : 2 ≤ kSize.toNat)
    (late : frame.LateInsertion router (frame :: others)) {frames : List RouterFrame} {router' : Router}
    {replacement : List RouterFrame} (advanced : frame.advance router frames = some (router', replacement)) :
    ¬BansPending router' (replacement ++ others) := by
  cases frame with
  | addCheck node => exact absurd late id
  | banPush id => exact absurd late not_false
  | banRemove id => exact absurd late not_false
  | addInsert node =>
      rcases late with ⟨banned, absent, room⟩
      rcases Option.map_eq_some_iff.mp advanced with ⟨table, added, same⟩
      cases same
      rcases add_spec live node with ⟨_, addedToo, _, _, outcome⟩
      rw [added, Option.some.injEq] at addedToo
      subst addedToo
      intro pending
      have stored := outcome.id_mem_of_room roomForTwo ((live.hasRoom_iff node.id).mp room)
      exact absent (List.mem_cons_of_mem _ (pending node.id banned stored))

/-! ## All interleavings -/

namespace RouterPool

def Pending (pool : RouterPool) : Prop := BansPending pool.shared pool.frames

def Placed (own : U160) (kSize : UInt8) (pool : RouterPool) : Prop := Live own kSize 0 pool.shared.buckets

variable {pool next : RouterPool} {task : Nat}

theorem Placed.step (placed : pool.Placed own kSize) (stepped : Pool.step RouterFrame.advance pool task = some next) :
    next.Placed own kSize := by
  rcases Pool.step_eq_some stepped with ⟨frame, callers, others, replacement, _, _, advanced, _⟩
  rcases RouterFrame.advance_live placed frame pool.frames with ⟨router', _, advancedToo, live⟩
  rw [advanced, Option.some.injEq, Prod.mk.injEq] at advancedToo
  rw [Placed, advancedToo.1]
  exact live

/-- As long as a call has not returned, it can move. -/
theorem Placed.moves (placed : pool.Placed own kSize) {frame : RouterFrame} {callers : List RouterFrame}
    (waiting : pool.tasks[task]? = some (frame :: callers)) :
    Exists fun next => Pool.step RouterFrame.advance pool task = some next := by
  rcases RouterFrame.advance_live placed frame pool.frames with ⟨router', replacement, advanced, _⟩
  refine ⟨⟨router', pool.tasks.set task (replacement ++ callers)⟩, ?_⟩
  rw [Pool.step, waiting]
  change Option.map _ (frame.advance pool.shared pool.frames) = _
  rw [advanced]
  rfl

/-- The steps that keep the removals pending are all but the late insertions. -/
theorem pending_step_iff (placed : pool.Placed own kSize) (roomForTwo : 2 ≤ kSize.toNat) (pending : pool.Pending) :
    ¬LateInsertion pool task <->
      forall next, Pool.step RouterFrame.advance pool task = some next -> RouterPool.Pending next := by
  constructor
  · intro inTime next stepped
    rcases Pool.step_eq_some stepped with ⟨frame, callers, others, replacement, found, before, advanced, after⟩
    refine BansPending.of_perm after.symm (BansPending.step placed (pending.of_perm before) ?_ advanced)
    exact fun late => inTime ⟨frame, callers, found, late.of_perm before.symm⟩
  · rintro kept ⟨frame, callers, found, late⟩
    rcases placed.moves found with ⟨next, stepped⟩
    rcases Pool.step_eq_some stepped with ⟨top, _, others, replacement, foundToo, before, advanced, after⟩
    rw [found, Option.some.injEq, List.cons.injEq] at foundToo
    rcases foundToo with ⟨rfl, _⟩
    exact (late.of_perm before).exposes placed roomForTwo advanced ((kept next stepped).of_perm after)

theorem start_pending (table : Chain) (calls : List RouterCall) : (start ⟨table, []⟩ calls).Pending :=
  fun _ banned => absurd banned List.not_mem_nil

end RouterPool

/-- From any table a node can start with, and for any calls in any order of their
critical sections: without a late insertion, no banned id is stored when all calls
have returned.  The late insertions are exactly the steps after which a stored
banned id has no removal to wait for. -/
theorem bans_hold_without_late_insertion {codec : Bencode.Codec} {table : Chain}
    (savable : Savable codec own K_SIZE table) (calls : List RouterCall) (schedule : List Nat) :
    (PartialRun.Permitted (Pool.step RouterFrame.advance) (fun pool task => ¬LateInsertion pool task)
        (RouterPool.start ⟨table, []⟩ calls) schedule ->
      forall final, RouterPool.run (RouterPool.start ⟨table, []⟩ calls) schedule = some final -> final.Finished ->
        NoBannedStored final.shared) ∧
    (PartialRun.Permitted (Pool.step RouterFrame.advance) (fun pool task => ¬LateInsertion pool task)
        (RouterPool.start ⟨table, []⟩ calls) schedule <->
      PartialRun.Always (Pool.step RouterFrame.advance) RouterPool.Pending
        (RouterPool.start ⟨table, []⟩ calls) schedule) := by
  have startPlaced : (RouterPool.start ⟨table, []⟩ calls).Placed own K_SIZE := savable.live
  have startPending := RouterPool.start_pending table calls
  have exact' : forall (pool : RouterPool) (task : Nat), pool.Placed own K_SIZE -> pool.Pending ->
      (¬LateInsertion pool task <->
        forall next, Pool.step RouterFrame.advance pool task = some next -> RouterPool.Pending next) :=
    fun _ _ placed pending => RouterPool.pending_step_iff placed (by decide) pending
  constructor
  · intro inTime final ran finished id banned stored
    have preserved : forall (pool : RouterPool) (task : Nat) (next : RouterPool),
        pool.Placed own K_SIZE ∧ pool.Pending -> ¬LateInsertion pool task ->
        Pool.step RouterFrame.advance pool task = some next -> next.Placed own K_SIZE ∧ next.Pending :=
      fun pool task next both inTime stepped =>
        ⟨both.1.step stepped, (exact' pool task both.1 both.2).mp inTime next stepped⟩
    have pending := (PartialRun.run_invariant_of_permitted preserved ⟨startPlaced, startPending⟩ inTime ran).2
    have waiting := pending id banned stored
    rw [finished] at waiting
    exact absurd waiting List.not_mem_nil
  · exact (PartialRun.always_iff_permitted (fun _ _ _ placed stepped => RouterPool.Placed.step placed stepped)
      exact' startPlaced startPending).symm

namespace LateBan

def node : NodeInfo := ⟨.new 0x80000000000000000000000000000000 0, .v4 0x7f000001 1337⟩

/-- One search hears from the node while another one bans its id. -/
def calls : List RouterCall := [.add node, .banId node.id]

/-- The ban comes between the check and the insertion. -/
def schedule : List Nat := [0, 1, 1, 0]

def final : RouterPool where
  shared := { buckets := [⟨U160.min, 0, K_SIZE, [node]⟩], bannedIds := [node.id] }
  tasks := [[], []]

end LateBan

namespace TimelyBan

def other : NodeInfo := ⟨.new 0x40000000000000000000000000000000 0, .v4 0x7f000002 1337⟩

/-- One more contact is added at the same time. -/
def calls : List RouterCall := [.add LateBan.node, .banId LateBan.node.id, .add other]

/-- The ban comes after the insertion of its contact, and between the check and the
insertion of the other one. -/
def schedule : List Nat := [0, 2, 0, 1, 2, 1]

def start : RouterPool := .start ⟨Bucket.root U160.min K_SIZE, []⟩ calls

def final : RouterPool where
  shared := { buckets := [⟨U160.min, 0, K_SIZE, [other]⟩], bannedIds := [LateBan.node.id] }
  tasks := [[], [], []]

theorem inTime : PartialRun.Permitted (Pool.step RouterFrame.advance) (fun pool task => ¬LateInsertion pool task)
    start schedule := by
  have harmless : forall {pool : RouterPool} {task : Nat} {frame : RouterFrame} {callers : List RouterFrame},
      pool.tasks[task]? = some (frame :: callers) ->
      (forall node, frame = .addInsert node -> node.id ∉ pool.shared.bannedIds) -> ¬LateInsertion pool task := by
    rintro pool task frame callers found fresh ⟨_, _, same, late⟩
    cases found.symm.trans same
    cases frame with
    | addInsert node => exact fresh node rfl late.1
    | addCheck _ | banPush _ | banRemove _ => exact late
  refine ⟨harmless rfl fun _ same => (nomatch same), fun next taken => ?_⟩
  cases taken
  refine ⟨harmless rfl fun _ same => (nomatch same), fun next taken => ?_⟩
  cases taken
  refine ⟨harmless rfl fun _ _ => List.not_mem_nil, fun next taken => ?_⟩
  cases taken
  refine ⟨harmless rfl fun _ same => (nomatch same), fun next taken => ?_⟩
  cases taken
  refine ⟨harmless rfl fun node same => ?_, fun next taken => ?_⟩
  · cases same
    decide +kernel
  cases taken
  exact ⟨harmless rfl fun _ same => (nomatch same), fun _ _ => trivial⟩

end TimelyBan

/-- Without a late insertion the banned contact is gone in the end, and the other one
is stored. -/
theorem bans_hold_without_late_insertion_interleaved :
    RouterPool.run TimelyBan.start TimelyBan.schedule = some TimelyBan.final ∧
      LateBan.node.id ∈ TimelyBan.final.shared.bannedIds ∧
      TimelyBan.other.id ∈ Bucket.storedIds TimelyBan.final.shared.buckets ∧
      NoBannedStored TimelyBan.final.shared ∧
      PartialRun.Always (Pool.step RouterFrame.advance) RouterPool.Pending TimelyBan.start TimelyBan.schedule := by
  have ran : RouterPool.run TimelyBan.start TimelyBan.schedule = some TimelyBan.final := by
    rfl
  have holds := bans_hold_without_late_insertion (@Savable.root Bencode.textCodec U160.min K_SIZE) TimelyBan.calls
    TimelyBan.schedule
  exact ⟨ran, List.mem_singleton.mpr rfl, List.mem_singleton.mpr rfl, holds.1 TimelyBan.inTime _ ran rfl,
    holds.2.mp TimelyBan.inTime⟩

/-- Both calls have returned, and the banned contact is stored. -/
theorem banned_contact_stored :
    (RouterPool.run (RouterPool.start (Router.new ⟨U160.min, LateBan.node.addr⟩) LateBan.calls) LateBan.schedule).map
        (fun pool => (pool.shared.buckets, pool.shared.bannedIds, pool.tasks)) =
      some (LateBan.final.shared.buckets, LateBan.final.shared.bannedIds, LateBan.final.tasks) ∧
      LateBan.final.Finished ∧ LateBan.node.id ∈ LateBan.final.shared.bannedIds ∧
      LateBan.node.id ∈ Bucket.storedIds LateBan.final.shared.buckets := by
  decide +kernel

end DhtExplorer
