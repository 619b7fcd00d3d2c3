import DhtExplorer.Library.BoundedQueue
import DhtExplorer.Router

namespace DhtExplorer

/-!
# How long a ban lasts

A ban appends the id and then drops the oldest entry of a full list, so the list
never keeps `BAN_COUNT` entries.  An id that is banned again is stored again.
Both cost places: the ids of the list are those of the last `BAN_COUNT - 1`
calls, repetitions included.
-/

namespace Router

/-- Ban one id after the other. -/
def banAll (self : Router) (ids : List U160) : Option Router := PartialRun.run banId self ids

/-- The most recently banned ids are in the ban list, and the router does not
take them. -/
def RecentBansHold (self : Router) (ids : List U160) : Prop :=
  forall id, id ∈ BoundedQueue.recent BAN_COUNT ids ->
    id ∈ self.bannedIds ∧ forall node : NodeInfo, node.id = id -> self.add node = some self

theorem pushBan_eq_push (bannedIds : List U160) (id : U160) :
    pushBan bannedIds id = BoundedQueue.push BAN_COUNT bannedIds id := rfl

theorem add_of_banned {self : Router} {node : NodeInfo} (banned : node.id ∈ self.bannedIds) :
    self.add node = some self := by
  rw [add, if_pos (List.contains_iff_mem.mpr banned)]

end Router

/-- The first bucket of a chain stays its first bucket. -/
theorem Bucket.remove_isSome (self : Bucket) (next : Chain) (id : U160) :
    Exists fun head => Exists fun tail => Exists fun found =>
      Bucket.remove (self :: next) id = some (head :: tail, found) := by
  induction next generalizing self with
  | nil =>
      rw [remove, List.isEmpty_nil, Bool.true_or, if_pos rfl]
      cases self.nodes.findIdx? (fun stored => stored.id == id) with
      | none => exact ⟨self, [], false, rfl⟩
      | some index => exact ⟨_, [], true, rfl⟩
  | cons child next ih =>
      rw [remove, List.isEmpty_cons, Bool.false_or]
      by_cases here : self.idBelongsHere id = true
      · rw [if_pos here]
        cases self.nodes.findIdx? (fun stored => stored.id == id) with
        | none => exact ⟨self, child :: next, false, rfl⟩
        | some index => exact ⟨_, child :: next, true, rfl⟩
      · rcases ih child with ⟨head, tail, found, removed⟩
        exact ⟨self, head :: tail, found, by rw [if_neg here, removed, Option.map_some]⟩

/-- Bans always return, and push one id after the other. -/
theorem Router.banAll_bannedIds (self : Bucket) (next : Chain) (bannedIds ids : List U160) :
    Exists fun router => Router.banAll ⟨self :: next, bannedIds⟩ ids = some router ∧
      router.bannedIds = ids.foldl (BoundedQueue.push BAN_COUNT) bannedIds := by
  induction ids generalizing self next bannedIds with
  | nil => exact ⟨_, rfl, rfl⟩
  | cons id rest ih =>
      rcases Bucket.remove_isSome self next id with ⟨head, tail, found, removed⟩
      rcases ih head tail (pushBan bannedIds id) with ⟨router, banned, pushed⟩
      refine ⟨router, PartialRun.run_cons_eq_some.mpr ⟨_, ?_, banned⟩, ?_⟩
      · rw [banId, removed, Option.map_some]
      · rw [pushed, pushBan_eq_push]
        rfl

/-- The ban list is the list of the last calls, one fewer than its limit. -/
theorem Router.banAll_latest (self : Bucket) (next : Chain) (ids : List U160) :
    Exists fun router => Router.banAll ⟨self :: next, []⟩ ids = some router ∧
      router.bannedIds = BoundedQueue.latest (BAN_COUNT - 1) ids := by
  rcases banAll_bannedIds self next [] ids with ⟨router, banned, pushed⟩
  exact ⟨router, banned, pushed.trans (BoundedQueue.foldl_push (BAN_COUNT - 1) ids)⟩

/-- The `BAN_COUNT` most recently banned ids are refused exactly when no id was
banned that is not among the last `BAN_COUNT - 1` calls. -/
theorem recent_bans_hold_iff (self : Bucket) (next : Chain) (ids : List U160) :
    Exists fun router => Router.banAll ⟨self :: next, []⟩ ids = some router ∧
      (router.RecentBansHold ids <->
        forall id, id ∈ ids -> id ∈ BoundedQueue.latest (Router.BAN_COUNT - 1) ids) := by
  rcases Router.banAll_latest self next ids with ⟨router, banned, latest⟩
  refine ⟨router, banned, ?_⟩
  rw [<- BoundedQueue.recent_subset_latest_iff]
  constructor
  · intro hold id among
    exact latest ▸ (hold id among).1
  · intro held id among
    have inList : id ∈ router.bannedIds := latest ▸ held id among
    exact ⟨inList, fun node same => Router.add_of_banned (same ▸ inList)⟩

namespace FullBanList

def ids : List U160 := (List.range 100).map fun number => .new 0 (BitVec.ofNat 32 (number + 1))

def first : NodeInfo := ⟨.new 0 1, .v4 0x0a000001 6881⟩

end FullBanList

/-- The hundredth ban drops the first one, although only a hundred ids were
banned.  The router takes the contact again. -/
theorem recent_ban_forgotten :
    Exists fun router => Router.banAll (Router.new ⟨.min, .v4 0x7f000001 6881⟩) FullBanList.ids = some router ∧
      FullBanList.first.id ∈ BoundedQueue.recent Router.BAN_COUNT FullBanList.ids ∧
      FullBanList.first.id ∉ router.bannedIds ∧ ¬router.RecentBansHold FullBanList.ids ∧
      (router.add FullBanList.first).map (fun taken => Bucket.stored taken.buckets) =
        some [FullBanList.first] := by
  have among : FullBanList.first.id ∈ BoundedQueue.recent Router.BAN_COUNT FullBanList.ids := by decide +kernel
  have run : (Router.banAll (Router.new ⟨.min, .v4 0x7f000001 6881⟩) FullBanList.ids).map
      (fun router => (decide (FullBanList.first.id ∉ router.bannedIds),
        (router.add FullBanList.first).map fun taken => Bucket.stored taken.buckets)) =
      some (true, some [FullBanList.first]) := by decide +kernel
  rcases Option.map_eq_some_iff.mp run with ⟨router, banned, outcome⟩
  rcases Prod.mk.inj outcome with ⟨absent, taken⟩
  have gone := of_decide_eq_true absent
  exact ⟨router, banned, among, gone, fun hold => gone (hold _ among).1, taken⟩

end DhtExplorer
