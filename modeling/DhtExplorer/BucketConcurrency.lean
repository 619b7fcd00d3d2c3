import DhtExplorer.Library.TaskPool
import DhtExplorer.TableRuns

namespace DhtExplorer

open TaskPool

/-!
# Concurrent calls of `add`

Each call of `add` is a task, cut at every point where another task can be
scheduled.  A read or write of a bucket's vector waits while another task holds
the write lock of that bucket.  The lock is kept across several steps only by
the redistribution loop, which calls `add` on the next bucket while it holds the
lock of its own; every other access takes and releases the lock in one step.

The length check and the `add_or_update` behind it are separate steps.  A split
that completes between them leaves the caller about to store into a bucket that
has a successor by then, without another look at `belongs_here`.  The results
below show that this is the only way in which a table can go wrong: the table is
well placed at the end exactly when no such stale push happened.
-/

/-- The next step of a call of `add`, or of the `make_next_bucket` inside it. -/
inductive AddStage where
  | checkNext
  | checkLen
  | storeUnsplit
  | recheckNext
  | recheckLen
  | setNext
  | lockNodes
  | split (index : Nat)
  | route
  | storeHere
deriving DecidableEq, Repr

/-- A call of `add` on the bucket at the given depth. -/
structure AddFrame where
  depth : Nat
  node : NodeInfo
  stage : AddStage
deriving DecidableEq, Repr

namespace AddFrame

/-- The write lock of a bucket is kept during its redistribution loop. -/
def holds (depth : Nat) (frame : AddFrame) : Bool :=
  match frame.stage with
  | .split _ => frame.depth == depth
  | _ => false

/-- One step of a call.  There is no step while the call waits for a lock, and
none where the source panics. -/
def advance (table : Chain) (frames : List AddFrame) (frame : AddFrame) :
    Option (Chain × List AddFrame) :=
  match table[frame.depth]? with
  | none => none
  | some self =>
      let hasNext := decide (frame.depth + 1 < table.length)
      let locked := frames.any (holds frame.depth)
      match frame.stage with
      | .checkNext =>
          some (table, [{ frame with stage := if hasNext then .recheckNext else .checkLen }])
      | .checkLen =>
          if locked then none
          else
            some (table, [{ frame with
              stage := if self.nodes.length < self.kSize.toNat then .storeUnsplit else .recheckNext }])
      | .storeUnsplit =>
          if locked then none
          else some (table.set frame.depth (self.addOrUpdate frame.node), [])
      | .recheckNext =>
          some (table, [{ frame with stage := if hasNext then .route else .recheckLen }])
      | .recheckLen =>
          if locked then none
          else
            some (table, [{ frame with
              stage := if self.nodes.length = self.kSize.toNat then .setNext else .route }])
      | .setNext =>
          if self.bucketIndex = MAX_BUCKET_INDEX then some (table, [])
          else if self.bucketIndex.toNat = 255 then none
          else if hasNext then some (table, [{ frame with stage := .route }])
          else some (table ++ [self.child], [{ frame with stage := .lockNodes }])
      | .lockNodes =>
          if locked then none else some (table, [{ frame with stage := .split 0 }])
      | .split index =>
          match self.nodes[index]? with
          | none => some (table, [{ frame with stage := .route }])
          | some moved =>
              if self.belongsHere moved then
                some (table, [{ frame with stage := .split (index + 1) }])
              else if hasNext then
                some (table.set frame.depth { self with nodes := VecOps.swapRemove self.nodes index },
                  [{ depth := frame.depth + 1, node := moved, stage := .checkNext }, frame])
              else none
      | .route =>
          if self.belongsHere frame.node then some (table, [{ frame with stage := .storeHere }])
          else if hasNext then some (table, [{ frame with depth := frame.depth + 1, stage := .checkNext }])
          else none
      | .storeHere =>
          if locked then none
          else some (table.set frame.depth (self.addOrUpdate frame.node), [])

end AddFrame

/-- A table with the calls of `add` that are running on it. -/
abbrev AddPool := Pool Chain AddFrame

namespace AddPool

/-- All calls enter at the first bucket. -/
def start (table : Chain) (nodes : List NodeInfo) : AddPool where
  shared := table
  tasks := nodes.map fun node => [{ depth := 0, node := node, stage := .checkNext }]

/-- A schedule names the task that moves next. -/
def run (pool : AddPool) (schedule : List Nat) : Option AddPool :=
  PartialRun.run (Pool.step AddFrame.advance) pool schedule

end AddPool

/-- Every bucket with a next bucket holds only what belongs there. -/
def SplitsSettled (table : Chain) : Prop :=
  forall (depth : Nat) (bucket : Bucket) (node : NodeInfo), table[depth]? = some bucket ->
    depth + 1 < table.length -> node ∈ bucket.nodes -> bucket.belongsHere node = true

/-- No id is stored in two buckets. -/
def BucketsDisjoint (table : Chain) : Prop :=
  forall (first second : Nat) (left right : Bucket) (id : U160), table[first]? = some left ->
    table[second]? = some right -> id ∈ left.nodes.map NodeInfo.id ->
    id ∈ right.nodes.map NodeInfo.id -> first = second

/-- The next step of the task pushes a contact into a bucket that was split
since its length was read, although the contact belongs further down. -/
def StalePush (pool : AddPool) (task : Nat) : Prop :=
  Exists fun frame : AddFrame => Exists fun callers : List AddFrame => Exists fun self : Bucket =>
    pool.tasks[task]? = some (frame :: callers) ∧ frame.stage = .storeUnsplit ∧
    pool.shared[frame.depth]? = some self ∧ frame.depth + 1 < pool.shared.length ∧
    self.belongsHere frame.node = false ∧ self.nodes.length < self.kSize.toNat

/-! ## What holds of every pool -/

def HasNext (table : Chain) (depth : Nat) : Prop := depth + 1 < table.length

def Full (kSize : UInt8) (table : Chain) (depth : Nat) : Prop :=
  forall bucket, table[depth]? = some bucket -> bucket.nodes.length = kSize.toNat

/-- The id does not belong behind the bucket at this depth. -/
def Leaves (own id : U160) (depth : Nat) : Prop := own.getBit depth ≠ id.getBit depth

namespace AddFrame

/-- The call has set the next bucket and not yet finished moving contacts. -/
def splits (depth : Nat) (frame : AddFrame) : Bool :=
  match frame.stage with
  | .lockNodes => frame.depth == depth
  | .split _ => frame.depth == depth
  | _ => false

/-- What a call has learned by the time it reaches a stage, and may still rely on
whatever the other calls did since. -/
def Learned (own : U160) (kSize : UInt8) (table : Chain) (frame : AddFrame) : Prop :=
  match frame.stage with
  | .checkNext => True
  | .checkLen => True
  | .storeUnsplit => True
  | .recheckNext => HasNext table frame.depth ∨ Full kSize table frame.depth
  | .recheckLen => HasNext table frame.depth ∨ Full kSize table frame.depth
  | .setNext => HasNext table frame.depth ∨ Full kSize table frame.depth
  | .lockNodes => HasNext table frame.depth ∧ Full kSize table frame.depth
  | .split index =>
      HasNext table frame.depth ∧
        forall bucket node, table[frame.depth]? = some bucket -> node ∈ bucket.nodes.take index ->
          Leaves own node.id frame.depth
  | .route => HasNext table frame.depth
  | .storeHere => HasNext table frame.depth ∧ Leaves own frame.node.id frame.depth

structure Sound (own : U160) (kSize : UInt8) (table : Chain) (frame : AddFrame) : Prop where
  inside : frame.depth < table.length
  shares : SharesPrefix own frame.node.id frame.depth
  learned : frame.Learned own kSize table

end AddFrame

/-- The invariant of a pool, which stale pushes do not break. -/
structure PoolSound (own : U160) (kSize : UInt8) (table : Chain) (frames : List AddFrame) : Prop where
  placed : forall (depth : Nat) (bucket : Bucket), table[depth]? = some bucket ->
    Placed own kSize depth bucket
  sound : forall frame, frame ∈ frames -> frame.Sound own kSize table
  oneSplit : forall depth, frames.countP (AddFrame.splits depth) ≤ 1

variable {own : U160} {kSize : UInt8} {table : Chain} {frames others : List AddFrame}
  {frame : AddFrame} {self : Bucket} {depth : Nat}

namespace PoolSound

theorem of_perm {frames' : List AddFrame} (perm : frames.Perm frames')
    (sound : PoolSound own kSize table frames) : PoolSound own kSize table frames' where
  placed := sound.placed
  sound := fun frame member => sound.sound frame (perm.mem_iff.mpr member)
  oneSplit := fun depth => perm.countP_eq (AddFrame.splits depth) ▸ sound.oneSplit depth

end PoolSound

namespace AddFrame

/-- A call relies on its own bucket only. -/
theorem Sound.of_same_bucket {table' : Chain} (sound : frame.Sound own kSize table)
    (longer : table.length ≤ table'.length) (same : table'[frame.depth]? = table[frame.depth]?) :
    frame.Sound own kSize table' := by
  rcases sound with ⟨inside, shares, learned⟩
  refine ⟨Nat.lt_of_lt_of_le inside longer, shares, ?_⟩
  have next : HasNext table frame.depth -> HasNext table' frame.depth :=
    fun has => Nat.lt_of_lt_of_le has longer
  rcases frame with ⟨at_, node, stage⟩
  cases stage with
  | checkNext => trivial
  | checkLen => trivial
  | storeUnsplit => trivial
  | recheckNext => exact learned.imp next fun full bucket found => full bucket (same ▸ found)
  | recheckLen => exact learned.imp next fun full bucket found => full bucket (same ▸ found)
  | setNext => exact learned.imp next fun full bucket found => full bucket (same ▸ found)
  | lockNodes => exact ⟨next learned.1, fun bucket found => learned.2 bucket (same ▸ found)⟩
  | split index =>
      exact ⟨next learned.1, fun bucket node found member => learned.2 bucket node (same ▸ found) member⟩
  | route => exact next learned
  | storeHere => exact ⟨next learned.1, learned.2⟩

/-- Storing a contact disturbs nobody but a redistribution loop, which would
hold the lock. -/
theorem Sound.of_store (sound : frame.Sound own kSize table) (node : NodeInfo)
    (found : table[depth]? = some self) (placed : Placed own kSize depth self)
    (unlocked : frame.holds depth = false) :
    frame.Sound own kSize (table.set depth (self.addOrUpdate node)) := by
  by_cases same : frame.depth = depth
  · subst same
    have full : Full kSize table frame.depth ->
        Full kSize (table.set frame.depth (self.addOrUpdate node)) frame.depth := by
      intro full bucket stored
      rw [List.getElem?_set_self sound.inside, Option.some.injEq] at stored
      subst stored
      have lengthEq := full self found
      rcases Bucket.addOrUpdate_cases self node with ⟨_, perm⟩ | ⟨_, room, _⟩ | ⟨_, _, unchanged⟩
      · rw [perm.length_eq, lengthEq]
      · rw [placed.kSize_eq, lengthEq] at room
        exact absurd room (Nat.lt_irrefl _)
      · rw [unchanged, lengthEq]
    rcases sound with ⟨inside, shares, learned⟩
    refine ⟨by rwa [List.length_set], shares, ?_⟩
    have next : HasNext table frame.depth ->
        HasNext (table.set frame.depth (self.addOrUpdate node)) frame.depth := by
      intro has
      rwa [HasNext, List.length_set]
    rcases frame with ⟨at_, called, stage⟩
    cases stage with
    | checkNext => trivial
    | checkLen => trivial
    | storeUnsplit => trivial
    | recheckNext => exact learned.imp next full
    | recheckLen => exact learned.imp next full
    | setNext => exact learned.imp next full
    | lockNodes => exact ⟨next learned.1, full learned.2⟩
    | split index =>
        change (at_ == at_) = false at unlocked
        rw [beq_self_eq_true] at unlocked
        cases unlocked
    | route => exact next learned
    | storeHere => exact ⟨next learned.1, learned.2⟩
  · exact sound.of_same_bucket (Nat.le_of_eq List.length_set.symm)
      (List.getElem?_set_ne fun equal => same equal.symm)

/-- A redistribution loop disturbs nobody, because it is the only one. -/
theorem Sound.of_split (sound : frame.Sound own kSize table) (bucket : Bucket)
    (has : HasNext table depth) (other : frame.splits depth = false) :
    frame.Sound own kSize (table.set depth bucket) := by
  by_cases same : frame.depth = depth
  · subst same
    rcases sound with ⟨inside, shares, learned⟩
    refine ⟨by rwa [List.length_set], shares, ?_⟩
    have next : HasNext (table.set frame.depth bucket) frame.depth := by
      rwa [HasNext, List.length_set]
    rcases frame with ⟨at_, called, stage⟩
    cases stage with
    | checkNext => trivial
    | checkLen => trivial
    | storeUnsplit => trivial
    | recheckNext => exact Or.inl next
    | recheckLen => exact Or.inl next
    | setNext => exact Or.inl next
    | lockNodes =>
        change (at_ == at_) = false at other
        rw [beq_self_eq_true] at other
        cases other
    | split index =>
        change (at_ == at_) = false at other
        rw [beq_self_eq_true] at other
        cases other
    | route => exact next
    | storeHere => exact ⟨next, learned.2⟩
  · exact sound.of_same_bucket (Nat.le_of_eq List.length_set.symm)
      (List.getElem?_set_ne fun equal => same equal.symm)

theorem Sound.of_append (sound : frame.Sound own kSize table) (bucket : Bucket) :
    frame.Sound own kSize (table ++ [bucket]) :=
  sound.of_same_bucket (by rw [List.length_append]; exact Nat.le_add_right _ _)
    (List.getElem?_append_left sound.inside)

end AddFrame

/-! ## What one step can do -/

/-- All effects of a step.  Most steps only move the call on, some finish or
continue elsewhere.  The table changes when a contact is stored, when the next
bucket is set, and when the loop hands a contact to it. -/
inductive AddEffect (own : U160) (kSize : UInt8) (table : Chain) (frames : List AddFrame)
    (frame : AddFrame) : Chain -> List AddFrame -> Prop where
  | control (replacement : List AddFrame)
      (sound : forall other, other ∈ replacement -> other.Sound own kSize table)
      (sameSplits : forall depth,
        replacement.countP (AddFrame.splits depth) = [frame].countP (AddFrame.splits depth)) :
      AddEffect own kSize table frames frame table replacement
  | finishes (has : HasNext table frame.depth)
      (leaves : forall (bucket : Bucket) (node : NodeInfo), table[frame.depth]? = some bucket ->
        node ∈ bucket.nodes -> Leaves own node.id frame.depth) :
      AddEffect own kSize table frames frame table [{ frame with stage := .route }]
  | stores (self : Bucket) (found : table[frame.depth]? = some self)
      (unlocked : forall other, other ∈ frames -> other.holds frame.depth = false)
      (idle : forall depth, frame.splits depth = false)
      (reason : frame.stage = .storeUnsplit ∨ Leaves own frame.node.id frame.depth) :
      AddEffect own kSize table frames frame (table.set frame.depth (self.addOrUpdate frame.node)) []
  | opens (self : Bucket) (found : table[frame.depth]? = some self) (last : ¬HasNext table frame.depth)
      (full : Full kSize table frame.depth) (shallow : frame.depth < 159)
      (idle : forall depth, frame.splits depth = false) :
      AddEffect own kSize table frames frame (table ++ [self.child]) [{ frame with stage := .lockNodes }]
  | hands (self : Bucket) (index : Nat) (moved : NodeInfo) (found : table[frame.depth]? = some self)
      (stage : frame.stage = .split index) (has : HasNext table frame.depth)
      (slot : self.nodes[index]? = some moved) (stays : ¬Leaves own moved.id frame.depth) :
      AddEffect own kSize table frames frame
        (table.set frame.depth { self with nodes := VecOps.swapRemove self.nodes index })
        [{ depth := frame.depth + 1, node := moved, stage := .checkNext }, frame]

/-- A call that neither splits before nor after only changes what it has learned. -/
private theorem AddEffect.goes {stage : AddStage} (sound : frame.Sound own kSize table)
    (learned : ({ frame with stage := stage } : AddFrame).Learned own kSize table)
    (sameSplits : forall depth,
      AddFrame.splits depth { frame with stage := stage } = AddFrame.splits depth frame) :
    AddEffect own kSize table frames frame table [{ frame with stage := stage }] := by
  refine .control _ ?_ ?_
  · intro other member
    rw [List.mem_singleton] at member
    subst member
    exact ⟨sound.inside, sound.shares, learned⟩
  · intro depth
    rw [List.countP_singleton, List.countP_singleton, sameSplits depth]

private theorem unlocked_of_any {frames : List AddFrame}
    (unlocked : ¬frames.any (AddFrame.holds depth) = true) :
    forall other, other ∈ frames -> other.holds depth = false := by
  intro other member
  cases held : other.holds depth with
  | false => rfl
  | true => exact absurd (List.any_eq_true.mpr ⟨other, member, held⟩) unlocked

theorem Placed.full_of_no_room (placed : Placed own kSize depth self)
    (found : table[depth]? = some self) (noRoom : ¬self.nodes.length < self.kSize.toNat) :
    Full kSize table depth := by
  intro bucket bucketFound
  rw [found, Option.some.injEq] at bucketFound
  subst bucketFound
  rw [placed.kSize_eq] at noRoom
  exact Nat.le_antisymm placed.length_le (Nat.le_of_not_lt noRoom)

theorem Placed.shallow_of_ne (placed : Placed own kSize depth self)
    (notDeepest : self.bucketIndex ≠ MAX_BUCKET_INDEX) : depth < 159 := by
  apply Nat.lt_of_le_of_ne placed.depth_le
  intro deepest
  exact notDeepest (UInt8.toNat_inj.mp (placed.bucketIndex_eq.trans deepest))

/-- The call gives up, finds the next bucket set, or sets it. -/
private theorem setNext_effect {at_ : Nat} {node : NodeInfo}
    (here : (AddFrame.mk at_ node .setNext).Sound own kSize table) (found : table[at_]? = some self)
    (placed : Placed own kSize at_ self) {table' : Chain} {replacement : List AddFrame}
    (advanced : AddFrame.advance table frames ⟨at_, node, .setNext⟩ = some (table', replacement)) :
    AddEffect own kSize table frames ⟨at_, node, .setNext⟩ table' replacement := by
  rw [AddFrame.advance, found] at advanced
  dsimp only at advanced
  by_cases deepest : self.bucketIndex = MAX_BUCKET_INDEX
  · rw [if_pos deepest] at advanced
    cases advanced
    exact .control [] (fun _ impossible => absurd impossible List.not_mem_nil) fun _ => rfl
  · rw [if_neg deepest] at advanced
    rcases Option.ite_none_left_eq_some.mp advanced with ⟨_, advanced⟩
    by_cases has : at_ + 1 < table.length
    · rw [if_pos (decide_eq_true has)] at advanced
      cases advanced
      exact .goes here has fun _ => rfl
    · rw [if_neg (fun decided => has (of_decide_eq_true decided))] at advanced
      cases advanced
      exact .opens self found has (here.learned.resolve_left has) (placed.shallow_of_ne deepest)
        fun _ => rfl

/-- The loop ends, leaves a contact where it is, or hands it on. -/
private theorem split_effect {at_ index : Nat} {node : NodeInfo}
    (here : (AddFrame.mk at_ node (.split index)).Sound own kSize table) (found : table[at_]? = some self)
    (placed : Placed own kSize at_ self) {table' : Chain} {replacement : List AddFrame}
    (advanced : AddFrame.advance table frames ⟨at_, node, (.split index)⟩ = some (table', replacement)) :
    AddEffect own kSize table frames ⟨at_, node, (.split index)⟩ table' replacement := by
  rw [AddFrame.advance, found] at advanced
  dsimp only at advanced
  cases slot : self.nodes[index]? with
  | none =>
      rw [slot] at advanced
      cases advanced
      refine .finishes here.learned.1 ?_
      intro bucket stored bucketFound storedMember
      rw [found, Option.some.injEq] at bucketFound
      subst bucketFound
      apply here.learned.2 self stored found
      rwa [List.take_of_length_le (List.getElem?_eq_none_iff.mp slot)]
  | some moved =>
      rw [slot] at advanced
      dsimp only at advanced
      by_cases belongs : self.belongsHere moved = true
      · rw [if_pos belongs] at advanced
        cases advanced
        refine .goes here ⟨here.learned.1, ?_⟩ fun _ => rfl
        intro bucket stored bucketFound storedMember
        rw [found, Option.some.injEq] at bucketFound
        subst bucketFound
        rw [List.take_add_one, slot, List.mem_append] at storedMember
        rcases storedMember with earlier | last
        · exact here.learned.2 self stored found earlier
        · rw [List.mem_singleton.mp last]
          exact placed.belongsHere_iff.mp belongs
      · rw [if_neg belongs] at advanced
        rcases Option.ite_none_right_eq_some.mp advanced with ⟨next, advanced⟩
        cases advanced
        have has : at_ + 1 < table.length := of_decide_eq_true next
        exact .hands self index moved found rfl has slot
          fun leaves => belongs (placed.belongsHere_iff.mpr leaves)

/-- The contact belongs here, or the call goes on in the next bucket. -/
private theorem route_effect {at_ : Nat} {node : NodeInfo}
    (here : (AddFrame.mk at_ node .route).Sound own kSize table) (found : table[at_]? = some self)
    (placed : Placed own kSize at_ self) {table' : Chain} {replacement : List AddFrame}
    (advanced : AddFrame.advance table frames ⟨at_, node, .route⟩ = some (table', replacement)) :
    AddEffect own kSize table frames ⟨at_, node, .route⟩ table' replacement := by
  rw [AddFrame.advance, found] at advanced
  dsimp only at advanced
  by_cases belongs : self.belongsHere node = true
  · rw [if_pos belongs] at advanced
    cases advanced
    exact .goes here ⟨here.learned, placed.belongsHere_iff.mp belongs⟩ fun _ => rfl
  · rw [if_neg belongs] at advanced
    rcases Option.ite_none_right_eq_some.mp advanced with ⟨next, advanced⟩
    have has : at_ + 1 < table.length := of_decide_eq_true next
    cases advanced
    refine .control _ ?_ fun _ => rfl
    intro other otherMember
    rw [List.mem_singleton] at otherMember
    subst otherMember
    refine ⟨has, here.shares.succ ?_, trivial⟩
    by_contra leaves
    exact belongs (placed.belongsHere_iff.mpr leaves)

/-- Every step has one of the effects. -/
theorem PoolSound.advance_effect (sound : PoolSound own kSize table frames) (member : frame ∈ frames)
    {table' : Chain} {replacement : List AddFrame}
    (advanced : AddFrame.advance table frames frame = some (table', replacement)) :
    AddEffect own kSize table frames frame table' replacement := by
  have here := sound.sound frame member
  obtain ⟨self, found⟩ : Exists fun self => table[frame.depth]? = some self :=
    ⟨_, List.getElem?_eq_getElem here.inside⟩
  have placed := sound.placed frame.depth self found
  have whole := advanced
  rw [AddFrame.advance, found] at advanced
  rcases frame with ⟨at_, node, stage⟩
  cases stage with
  | checkNext =>
      dsimp only at advanced
      cases advanced
      by_cases has : at_ + 1 < table.length
      · rw [if_pos (decide_eq_true has)]
        exact .goes here (Or.inl has) fun _ => rfl
      · rw [if_neg (fun decided => has (of_decide_eq_true decided))]
        exact .goes here trivial fun _ => rfl
  | checkLen =>
      rcases Option.ite_none_left_eq_some.mp advanced with ⟨unlocked, advanced⟩
      cases advanced
      by_cases room : self.nodes.length < self.kSize.toNat
      · rw [if_pos room]
        exact .goes here trivial fun _ => rfl
      · rw [if_neg room]
        exact .goes here (Or.inr (placed.full_of_no_room found room)) fun _ => rfl
  | storeUnsplit =>
      rcases Option.ite_none_left_eq_some.mp advanced with ⟨unlocked, advanced⟩
      cases advanced
      exact .stores self found (unlocked_of_any unlocked) (fun _ => rfl) (Or.inl rfl)
  | recheckNext =>
      dsimp only at advanced
      cases advanced
      by_cases has : at_ + 1 < table.length
      · rw [if_pos (decide_eq_true has)]
        exact .goes here has fun _ => rfl
      · rw [if_neg (fun decided => has (of_decide_eq_true decided))]
        exact .goes here here.learned fun _ => rfl
  | recheckLen =>
      rcases Option.ite_none_left_eq_some.mp advanced with ⟨unlocked, advanced⟩
      cases advanced
      by_cases full : self.nodes.length = self.kSize.toNat
      · rw [if_pos full]
        exact .goes here here.learned fun _ => rfl
      · rw [if_neg full]
        refine .goes here ?_ fun _ => rfl
        exact here.learned.resolve_right fun all => full ((all self found).trans (placed.kSize_eq ▸ rfl))
  | setNext => exact setNext_effect here found placed whole
  | lockNodes =>
      rcases Option.ite_none_left_eq_some.mp advanced with ⟨unlocked, advanced⟩
      cases advanced
      refine .goes here ⟨here.learned.1, ?_⟩ fun _ => rfl
      intro bucket stored _ impossible
      exact absurd impossible List.not_mem_nil
  | split index => exact split_effect here found placed whole
  | route => exact route_effect here found placed whole
  | storeHere =>
      rcases Option.ite_none_left_eq_some.mp advanced with ⟨unlocked, advanced⟩
      cases advanced
      exact .stores self found (unlocked_of_any unlocked) (fun _ => rfl) (Or.inr here.learned.2)

/-! ## The invariant is kept by every step -/

namespace AddFrame

theorem Sound.of_splits (sound : frame.Sound own kSize table) (splitting : frame.splits depth = true) :
    frame.depth = depth ∧ HasNext table depth ∧
      (frame.holds depth = true ∨ Full kSize table depth) := by
  rcases frame with ⟨at_, node, stage⟩
  cases stage with
  | lockNodes =>
      have same : at_ = depth := beq_iff_eq.mp splitting
      subst same
      exact ⟨rfl, sound.learned.1, Or.inr sound.learned.2⟩
  | split index =>
      have same : at_ = depth := beq_iff_eq.mp splitting
      subst same
      exact ⟨rfl, sound.learned.1, Or.inl splitting⟩
  | _ => cases splitting

end AddFrame

theorem placed_set (placed : forall (depth : Nat) (bucket : Bucket), table[depth]? = some bucket ->
      Placed own kSize depth bucket) {changed : Bucket} (here : Placed own kSize depth changed) :
    forall (position : Nat) (bucket : Bucket), (table.set depth changed)[position]? = some bucket ->
      Placed own kSize position bucket := by
  intro position bucket found
  by_cases same : depth = position
  · subst same
    have inside : depth < table.length := by
      have bound := (List.getElem?_eq_some_iff.mp found).1
      rwa [List.length_set] at bound
    rw [List.getElem?_set_self inside, Option.some.injEq] at found
    exact found ▸ here
  · rw [List.getElem?_set_ne same] at found
    exact placed position bucket found

/-- The deepest bucket's child comes directly behind it. -/
theorem placed_append (placed : forall (depth : Nat) (bucket : Bucket), table[depth]? = some bucket ->
      Placed own kSize depth bucket) {child : Bucket} (behind : Placed own kSize table.length child) :
    forall (position : Nat) (bucket : Bucket), (table ++ [child])[position]? = some bucket ->
      Placed own kSize position bucket := by
  intro position bucket found
  by_cases inside : position < table.length
  · rw [List.getElem?_append_left inside] at found
    exact placed position bucket found
  · rw [List.getElem?_append_right (Nat.le_of_not_lt inside)] at found
    have atEnd : position - table.length = 0 := by
      have bound := (List.getElem?_eq_some_iff.mp found).1
      rw [List.length_singleton] at bound
      exact Nat.lt_one_iff.mp bound
    have position_eq : position = table.length :=
      Nat.le_antisymm (Nat.sub_eq_zero_iff_le.mp atEnd) (Nat.le_of_not_lt inside)
    rw [atEnd] at found
    cases found
    exact position_eq ▸ behind

private theorem countP_splits_eq_zero {replacement : List AddFrame}
    (idle : forall frame, frame ∈ replacement -> AddFrame.splits depth frame = false) :
    replacement.countP (AddFrame.splits depth) = 0 := by
  rw [List.countP_eq_zero]
  intro frame member splitting
  rw [idle frame member] at splitting
  cases splitting

/-- Taking one contact out keeps a bucket placed. -/
theorem placed_swapRemove {index : Nat} {moved : NodeInfo} (placed : Placed own kSize depth self)
    (slot : self.nodes[index]? = some moved) :
    Placed own kSize depth { self with nodes := VecOps.swapRemove self.nodes index } := by
  have perm := (VecOps.swapRemove_spec slot).2
  have nodup : (moved.id :: (VecOps.swapRemove self.nodes index).map NodeInfo.id).Nodup :=
    ((perm.map NodeInfo.id).nodup_iff).mpr placed.nodup
  have lengthEq := perm.length_eq
  have bound := placed.length_le
  refine placed.withNodes ?_ (fun node member => placed.shares node ?_) (List.nodup_cons.mp nodup).2
  · rw [List.length_cons] at lengthEq
    omega
  · exact perm.mem_iff.mp (List.mem_cons_of_mem _ member)

namespace AddFrame

/-- The call that has set the next bucket may lock the nodes. -/
theorem Sound.opened (sound : frame.Sound own kSize table) (full : Full kSize table frame.depth)
    (lengthEq : table.length = frame.depth + 1) (child : Bucket) :
    ({ frame with stage := .lockNodes } : AddFrame).Sound own kSize (table ++ [child]) := by
  have longer : (table ++ [child]).length = frame.depth + 2 := by
    rw [List.length_append, lengthEq, List.length_singleton]
  refine ⟨?_, sound.shares, ?_, ?_⟩
  · change frame.depth < _
    omega
  · change frame.depth + 1 < _
    omega
  · intro bucket found
    rw [List.getElem?_append_left sound.inside] at found
    exact full bucket found

/-- The loop goes on behind the contact that it has taken out. -/
theorem Sound.again {index : Nat} {moved : NodeInfo} (sound : frame.Sound own kSize table)
    (stage : frame.stage = .split index) (found : table[frame.depth]? = some self)
    (slot : self.nodes[index]? = some moved) :
    frame.Sound own kSize (table.set frame.depth { self with nodes := VecOps.swapRemove self.nodes index }) := by
  refine ⟨by rw [List.length_set]; exact sound.inside, sound.shares, ?_⟩
  have learned := sound.learned
  rw [AddFrame.Learned, stage] at learned ⊢
  refine ⟨by rw [HasNext, List.length_set]; exact learned.1, ?_⟩
  intro bucket node bucketFound nodeMember
  rw [List.getElem?_set_self sound.inside, Option.some.injEq] at bucketFound
  subst bucketFound
  rw [(VecOps.swapRemove_spec slot).1] at nodeMember
  exact learned.2 self node found nodeMember

end AddFrame

namespace PoolSound

/-- Another frame splits nowhere that the moving frame splits. -/
theorem other_splits (sound : PoolSound own kSize table (frame :: others))
    (splitting : frame.splits depth = true) {other : AddFrame} (member : other ∈ others) :
    other.splits depth = false := by
  have one := sound.oneSplit depth
  rw [List.countP_cons_of_pos splitting] at one
  have none : others.countP (AddFrame.splits depth) = 0 := Nat.le_zero.mp (Nat.le_of_succ_le_succ one)
  exact Bool.eq_false_iff.mpr (List.countP_eq_zero.mp none other member)

/-- A replacement that splits no more than the moving frame adds no second split. -/
theorem oneSplit_of_le (sound : PoolSound own kSize table (frame :: others)) {replacement : List AddFrame}
    (less : replacement.countP (AddFrame.splits depth) ≤ [frame].countP (AddFrame.splits depth)) :
    (replacement ++ others).countP (AddFrame.splits depth) ≤ 1 := by
  have one := sound.oneSplit depth
  rw [← List.singleton_append, List.countP_append] at one
  rw [List.countP_append]
  omega

/-- The call that has set the next bucket is the only one that splits there: for
any other one, the bucket would have had a next one before. -/
theorem oneSplit_opened (sound : PoolSound own kSize table (frame :: others)) (last : ¬HasNext table frame.depth)
    (depth : Nat) :
    ([({ frame with stage := .lockNodes } : AddFrame)] ++ others).countP (AddFrame.splits depth) ≤ 1 := by
  rw [List.countP_append]
  by_cases same : frame.depth = depth
  · have none : others.countP (AddFrame.splits depth) = 0 := by
      apply countP_splits_eq_zero
      intro other member
      apply Bool.eq_false_iff.mpr
      intro splitting
      have there := sound.sound other (List.mem_cons_of_mem _ member)
      exact last (same ▸ (there.of_splits splitting).2.1)
    rw [none]
    exact List.countP_le_length
  · have none : [({ frame with stage := .lockNodes } : AddFrame)].countP (AddFrame.splits depth) = 0 := by
      apply countP_splits_eq_zero
      intro other member
      rw [List.mem_singleton] at member
      subst member
      exact beq_eq_false_iff_ne.mpr same
    rw [none, Nat.zero_add]
    have one := sound.oneSplit depth
    rw [List.countP_cons] at one
    omega

/-- The step lemma. -/
theorem step (sound : PoolSound own kSize table (frame :: others)) {table' : Chain}
    {replacement : List AddFrame} (perm : frames.Perm (frame :: others))
    (effect : AddEffect own kSize table frames frame table' replacement) :
    PoolSound own kSize table' (replacement ++ others) := by
  have here := sound.sound frame List.mem_cons_self
  have there : forall other, other ∈ others -> other.Sound own kSize table :=
    fun other member => sound.sound other (List.mem_cons_of_mem _ member)
  cases effect with
  | control _ replacementSound sameSplits =>
      refine ⟨sound.placed, ?_, fun depth => sound.oneSplit_of_le (Nat.le_of_eq (sameSplits depth))⟩
      exact fun other member => (List.mem_append.mp member).elim (replacementSound other) (there other)
  | finishes has leaves =>
      refine ⟨sound.placed, ?_, fun depth => sound.oneSplit_of_le (Nat.zero_le _)⟩
      intro other member
      rcases List.mem_append.mp member with new | old
      · rw [List.mem_singleton] at new
        subst new
        exact ⟨here.inside, here.shares, has⟩
      · exact there other old
  | stores self found unlocked idle reason =>
      have placed := sound.placed frame.depth self found
      refine ⟨placed_set sound.placed (placed.addOrUpdate here.shares), ?_,
        fun depth => sound.oneSplit_of_le (Nat.zero_le _)⟩
      intro other member
      exact (there other member).of_store frame.node found placed
        (unlocked other (perm.mem_iff.mpr (List.mem_cons_of_mem _ member)))
  | opens self found last full shallow idle =>
      have placed := sound.placed frame.depth self found
      have lengthEq : table.length = frame.depth + 1 :=
        Nat.le_antisymm (Nat.le_of_not_lt last) here.inside
      refine ⟨placed_append sound.placed (lengthEq ▸ placed.child shallow), ?_, sound.oneSplit_opened last⟩
      intro other member
      rcases List.mem_append.mp member with new | old
      · rw [List.mem_singleton] at new
        subst new
        exact here.opened full lengthEq self.child
      · exact (there other old).of_append self.child
  | hands self index moved found stage has slot stays =>
      have placed := sound.placed frame.depth self found
      have splitting : frame.splits frame.depth = true := by
        rw [AddFrame.splits, stage]
        exact beq_self_eq_true _
      refine ⟨placed_set sound.placed (placed_swapRemove placed slot), ?_, ?_⟩
      · intro other member
        rcases List.mem_append.mp member with new | old
        · rcases List.mem_cons.mp new with handed | again
          · subst handed
            refine ⟨?_, (placed.shares moved ?_).succ ?_, trivial⟩
            · rw [List.length_set]
              exact has
            · exact List.mem_of_getElem? slot
            · exact not_not.mp stays
          · rw [List.mem_singleton] at again
            subst again
            exact here.again stage found slot
        · exact (there other old).of_split _ has (sound.other_splits splitting old)
      · intro depth
        apply sound.oneSplit_of_le
        rw [List.countP_cons_of_neg Bool.false_ne_true]

end PoolSound

/-! ## Misplaced contacts come from stale pushes, and stay -/

/-- No contact of a split bucket belongs behind it, unless a call is still
redistributing that bucket. -/
def Settled (own : U160) (table : Chain) (frames : List AddFrame) : Prop :=
  forall (depth : Nat) (bucket : Bucket) (node : NodeInfo), table[depth]? = some bucket ->
    HasNext table depth -> frames.countP (AddFrame.splits depth) = 0 -> node ∈ bucket.nodes ->
    Leaves own node.id depth

/-- A contact lies in front of the bucket it belongs to, and nobody is going to
move it. -/
def Misplaced (own : U160) (table : Chain) (frames : List AddFrame) : Prop :=
  Exists fun depth : Nat => Exists fun bucket : Bucket => Exists fun node : NodeInfo =>
    table[depth]? = some bucket ∧ HasNext table depth ∧
    frames.countP (AddFrame.splits depth) = 0 ∧ node ∈ bucket.nodes ∧ ¬Leaves own node.id depth

/-- The frame stores into a bucket without having looked at where its contact
belongs, and the bucket has been split in the meantime. -/
def AddFrame.Stale (own : U160) (kSize : UInt8) (table : Chain) (frame : AddFrame) : Prop :=
  frame.stage = .storeUnsplit ∧ HasNext table frame.depth ∧ ¬Leaves own frame.node.id frame.depth ∧
    Exists fun self : Bucket => table[frame.depth]? = some self ∧ self.nodes.length < kSize.toNat

theorem Settled.of_perm {frames' : List AddFrame} (perm : frames.Perm frames')
    (settled : Settled own table frames) : Settled own table frames' :=
  fun depth bucket node found has none member =>
    settled depth bucket node found has (perm.countP_eq (AddFrame.splits depth) ▸ none) member

theorem Misplaced.of_perm {frames' : List AddFrame} (perm : frames.Perm frames')
    (misplaced : Misplaced own table frames) : Misplaced own table frames' := by
  rcases misplaced with ⟨depth, bucket, node, found, has, none, member, stays⟩
  exact ⟨depth, bucket, node, found, has, perm.countP_eq (AddFrame.splits depth) ▸ none, member, stays⟩

private theorem countP_splits_append_eq_zero {replacement : List AddFrame}
    (none : (replacement ++ others).countP (AddFrame.splits depth) = 0)
    (idle : frame.splits depth = false) :
    (frame :: others).countP (AddFrame.splits depth) = 0 := by
  rw [List.countP_append] at none
  rw [List.countP_cons_of_neg (by rw [idle]; exact Bool.false_ne_true)]
  omega

/-- Every step but a stale push keeps the split buckets settled. -/
theorem Settled.step (sound : PoolSound own kSize table (frame :: others))
    (settled : Settled own table (frame :: others)) {table' : Chain} {replacement : List AddFrame}
    (effect : AddEffect own kSize table frames frame table' replacement)
    (fresh : ¬frame.Stale own kSize table) : Settled own table' (replacement ++ others) := by
  have here := sound.sound frame List.mem_cons_self
  intro depth bucket node found has none member
  cases effect with
  | control _ _ sameSplits =>
      apply settled depth bucket node found has ?_ member
      rwa [← List.singleton_append, List.countP_append, ← sameSplits, ← List.countP_append]
  | finishes _ leaves =>
      by_cases same : frame.depth = depth
      · subst same
        exact leaves bucket node found member
      · refine settled depth bucket node found has (countP_splits_append_eq_zero none ?_) member
        apply Bool.eq_false_iff.mpr
        exact fun splitting => same (here.of_splits splitting).1
  | stores self selfFound unlocked idle reason =>
      have has' : HasNext table depth := by
        rwa [HasNext, List.length_set] at has
      have none' := countP_splits_append_eq_zero none (idle depth)
      rcases VecOps.getElem?_set_cases found with ⟨same, rfl⟩ | ⟨_, old⟩
      · subst same
        have placed := sound.placed frame.depth self selfFound
        rcases Bucket.addOrUpdate_cases self frame.node with ⟨_, perm⟩ | ⟨_, room, appended⟩ |
          ⟨_, _, unchanged⟩
        · exact settled _ self node selfFound has' none' (perm.mem_iff.mp member)
        · rw [appended, List.mem_append, List.mem_singleton] at member
          rcases member with old | new
          · exact settled _ self node selfFound has' none' old
          · subst new
            rcases reason with unsplit | leaves
            · by_contra stays
              rw [placed.kSize_eq] at room
              exact fresh ⟨unsplit, has', stays, self, selfFound, room⟩
            · exact leaves
        · exact settled _ self node selfFound has' none' (unchanged ▸ member)
      · exact settled depth bucket node old has' none' member
  | opens self selfFound last full shallow idle =>
      have lengthEq : table.length = frame.depth + 1 :=
        Nat.le_antisymm (Nat.le_of_not_lt last) here.inside
      have bound : depth + 1 < frame.depth + 2 := by
        rwa [HasNext, List.length_append, lengthEq, List.length_singleton] at has
      by_cases same : frame.depth = depth
      · subst same
        rw [List.singleton_append,
          List.countP_cons_of_pos (by exact beq_self_eq_true frame.depth)] at none
        cases none
      · have inside : depth < table.length := by omega
        rw [List.getElem?_append_left inside] at found
        refine settled depth bucket node found ?_ (countP_splits_append_eq_zero none (idle depth)) member
        change depth + 1 < table.length
        omega
  | hands self index moved selfFound stage _ slot stays =>
      have has' : HasNext table depth := by
        rwa [HasNext, List.length_set] at has
      rw [List.cons_append, List.singleton_append, List.countP_cons_of_neg Bool.false_ne_true] at none
      rcases VecOps.getElem?_set_cases found with ⟨same, rfl⟩ | ⟨_, old⟩
      · subst same
        have splitting : frame.splits frame.depth = true := by
          rw [AddFrame.splits, stage]
          exact beq_self_eq_true _
        rw [List.countP_cons_of_pos splitting] at none
        cases none
      · exact settled depth bucket node old has' none member

/-- A misplaced contact stays where it is. -/
theorem Misplaced.step (misplaced : Misplaced own table (frame :: others)) {table' : Chain} {replacement : List AddFrame}
    (effect : AddEffect own kSize table frames frame table' replacement) :
    Misplaced own table' (replacement ++ others) := by
  rcases misplaced with ⟨depth, bucket, node, found, has, none, member, stays⟩
  have idle : frame.splits depth = false :=
    Bool.eq_false_iff.mpr (List.countP_eq_zero.mp none frame List.mem_cons_self)
  have noneThere : others.countP (AddFrame.splits depth) = 0 := by
    rwa [List.countP_cons_of_neg (by rw [idle]; exact Bool.false_ne_true)] at none
  have inside : depth < table.length := (List.getElem?_eq_some_iff.mp found).1
  cases effect with
  | control _ _ sameSplits =>
      refine ⟨depth, bucket, node, found, has, ?_, member, stays⟩
      rwa [List.countP_append, sameSplits, ← List.countP_append]
  | finishes _ _ =>
      refine ⟨depth, bucket, node, found, has, ?_, member, stays⟩
      exact (List.countP_cons_of_neg Bool.false_ne_true).trans noneThere
  | stores self selfFound _ _ _ =>
      have has' : HasNext (table.set frame.depth (self.addOrUpdate frame.node)) depth := by
        rwa [HasNext, List.length_set]
      by_cases same : frame.depth = depth
      · subst same
        rw [selfFound, Option.some.injEq] at found
        subst found
        refine ⟨frame.depth, self.addOrUpdate frame.node, node, List.getElem?_set_self inside, has',
          noneThere, ?_, stays⟩
        exact Bucket.mem_addOrUpdate_of_mem member
      · refine ⟨depth, bucket, node, ?_, has', noneThere, member, stays⟩
        rwa [List.getElem?_set_ne same]
  | opens self _ last _ _ _ =>
      refine ⟨depth, bucket, node, ?_, ?_, ?_, member, stays⟩
      · rwa [List.getElem?_append_left inside]
      · exact Nat.lt_of_lt_of_le has (by rw [List.length_append]; exact Nat.le_add_right _ _)
      · rw [List.singleton_append, List.countP_cons_of_neg, noneThere]
        intro splitting
        exact last (beq_iff_eq.mp splitting ▸ has)
  | hands self index _ selfFound stage _ _ _ =>
      have elsewhere : frame.depth ≠ depth := by
        intro same
        rw [AddFrame.splits, stage, same] at idle
        change (depth == depth) = false at idle
        rw [beq_self_eq_true] at idle
        cases idle
      refine ⟨depth, bucket, node, ?_, ?_, ?_, member, stays⟩
      · rwa [List.getElem?_set_ne elsewhere]
      · rwa [HasNext, List.length_set]
      · rw [List.cons_append, List.singleton_append, List.countP_cons_of_neg Bool.false_ne_true]
        exact none

/-- A stale push misplaces its contact.  No call is redistributing the bucket:
one that is about to begin still finds it full, and one that has begun holds the
lock. -/
theorem AddFrame.Stale.misplaces (sound : PoolSound own kSize table (frame :: others))
    (stale : frame.Stale own kSize table) (perm : frames.Perm (frame :: others)) {table' : Chain}
    {replacement : List AddFrame}
    (advanced : AddFrame.advance table frames frame = some (table', replacement)) :
    Misplaced own table' (replacement ++ others) := by
  rcases stale with ⟨stage, has, stays, self, found, room⟩
  have inside := (sound.sound frame List.mem_cons_self).inside
  have placed := sound.placed frame.depth self found
  rw [AddFrame.advance, found] at advanced
  dsimp only at advanced
  rw [stage] at advanced
  dsimp only at advanced
  by_cases locked : frames.any (AddFrame.holds frame.depth) = true
  · rw [if_pos locked] at advanced
    cases advanced
  · rw [if_neg locked] at advanced
    cases advanced
    rw [← placed.kSize_eq] at room
    have kept : frame.node.id ∈ (self.addOrUpdate frame.node).nodes.map NodeInfo.id :=
      Bucket.id_mem_addOrUpdate room
    rcases List.mem_map.mp kept with
      ⟨stored, member, sameId⟩
    refine ⟨frame.depth, self.addOrUpdate frame.node, stored, List.getElem?_set_self inside, ?_, ?_,
      member, sameId ▸ stays⟩
    · rwa [HasNext, List.length_set]
    · apply countP_splits_eq_zero
      intro other otherMember
      apply Bool.eq_false_iff.mpr
      intro splitting
      have otherSound := sound.sound other (List.mem_cons_of_mem _ otherMember)
      rcases (otherSound.of_splits splitting).2.2 with held | full
      · rw [unlocked_of_any locked other (perm.mem_iff.mpr (List.mem_cons_of_mem _ otherMember))] at held
        cases held
      · rw [placed.kSize_eq, full self found] at room
        exact Nat.lt_irrefl _ room

/-! ## Whole schedules -/

namespace AddPool

/-- The invariant of a pool. -/
def Sound (own : U160) (kSize : UInt8) (pool : AddPool) : Prop :=
  PoolSound own kSize pool.shared pool.frames

theorem start_sound (live : Live own kSize 0 table) (nodes : List NodeInfo) :
    (start table nodes).Sound own kSize := by
  have entering : forall frame, frame ∈ (start table nodes).frames ->
      frame.depth = 0 ∧ frame.stage = .checkNext := by
    intro frame member
    rcases List.mem_flatten.mp member with ⟨task, taskMember, frameMember⟩
    rcases List.mem_map.mp taskMember with ⟨node, _, rfl⟩
    rw [List.mem_singleton] at frameMember
    subst frameMember
    exact ⟨rfl, rfl⟩
  refine ⟨?_, ?_, ?_⟩
  · intro depth bucket found
    have placed := (live.placed found).1
    rwa [Nat.zero_add] at placed
  · intro frame member
    rcases entering frame member with ⟨depth, stage⟩
    rcases frame with ⟨_, node, _⟩
    cases depth
    cases stage
    refine ⟨?_, sharesPrefix_zero own node.id, trivial⟩
    cases live <;> exact Nat.succ_pos _
  · intro depth
    rw [countP_splits_eq_zero]
    · exact Nat.zero_le 1
    · intro frame member
      rcases entering frame member with ⟨_, stage⟩
      rw [AddFrame.splits, stage]

theorem start_settled (live : Live own kSize 0 table) (nodes : List NodeInfo) :
    Settled own (start table nodes).shared (start table nodes).frames := by
  intro depth bucket node found has _ member
  have differs := (live.placed found).2 has node member
  rwa [Nat.zero_add] at differs

variable {pool next : AddPool} {task : Nat}

theorem Sound.step (sound : pool.Sound own kSize) (stepped : Pool.step AddFrame.advance pool task = some next) :
    next.Sound own kSize := by
  rcases Pool.step_eq_some stepped with ⟨frame, _, others, replacement, _, before, advanced, after⟩
  have member : frame ∈ pool.frames := before.mem_iff.mpr List.mem_cons_self
  have effect := PoolSound.advance_effect sound member advanced
  exact ((sound.of_perm before).step before effect).of_perm after.symm

/-- The named task's next step is stale exactly when its top frame is. -/
theorem stalePush_iff (sound : pool.Sound own kSize) {frame : AddFrame} {callers : List AddFrame}
    (found : pool.tasks[task]? = some (frame :: callers)) :
    StalePush pool task <-> frame.Stale own kSize pool.shared := by
  constructor
  · rintro ⟨frame', callers', self, found', stage, selfFound, has, stays, room⟩
    rw [found] at found'
    cases found'
    have placed := sound.placed _ self selfFound
    refine ⟨stage, has, ?_, self, selfFound, placed.kSize_eq ▸ room⟩
    intro leaves
    rw [placed.belongsHere_iff.mpr leaves] at stays
    cases stays
  · rintro ⟨stage, has, stays, self, selfFound, room⟩
    have placed := sound.placed _ self selfFound
    refine ⟨frame, callers, self, found, stage, selfFound, has, ?_, placed.kSize_eq ▸ room⟩
    apply Bool.eq_false_iff.mpr
    exact fun belongs => stays (placed.belongsHere_iff.mp belongs)

theorem settled_step (sound : pool.Sound own kSize) (settled : Settled own pool.shared pool.frames)
    (fresh : ¬StalePush pool task) (stepped : Pool.step AddFrame.advance pool task = some next) :
    Settled own next.shared next.frames := by
  rcases Pool.step_eq_some stepped with ⟨frame, callers, others, replacement, found, before, advanced, after⟩
  have member : frame ∈ pool.frames := before.mem_iff.mpr List.mem_cons_self
  have effect := PoolSound.advance_effect sound member advanced
  rw [stalePush_iff sound found] at fresh
  exact ((settled.of_perm before).step (sound.of_perm before) effect fresh).of_perm after.symm

theorem misplaced_step (sound : pool.Sound own kSize) (misplaced : Misplaced own pool.shared pool.frames)
    (stepped : Pool.step AddFrame.advance pool task = some next) :
    Misplaced own next.shared next.frames := by
  rcases Pool.step_eq_some stepped with ⟨frame, _, others, replacement, _, before, advanced, after⟩
  have member : frame ∈ pool.frames := before.mem_iff.mpr List.mem_cons_self
  have effect := PoolSound.advance_effect sound member advanced
  exact ((misplaced.of_perm before).step effect).of_perm after.symm

theorem misplaced_of_stalePush (sound : pool.Sound own kSize) (stale : StalePush pool task)
    (stepped : Pool.step AddFrame.advance pool task = some next) :
    Misplaced own next.shared next.frames := by
  rcases Pool.step_eq_some stepped with ⟨frame, callers, others, replacement, found, before, advanced, after⟩
  rw [stalePush_iff sound found] at stale
  exact (stale.misplaces (sound.of_perm before) before advanced).of_perm after.symm

/-- A sound table whose split buckets are settled stores no id in two buckets:
the bucket in front keeps only ids that leave the own id at its bit, and the
bucket behind only ids that still agree with it there. -/
theorem bucketsDisjoint (sound : PoolSound own kSize table frames) (settled : SplitsSettled table) :
    BucketsDisjoint table := by
  have ordered : forall (first second : Nat) (left right : Bucket) (id : U160),
      table[first]? = some left -> table[second]? = some right -> id ∈ left.nodes.map NodeInfo.id ->
      id ∈ right.nodes.map NodeInfo.id -> ¬first < second := by
    intro first second left right id leftFound rightFound leftMember rightMember less
    rcases List.mem_map.mp leftMember with ⟨here, hereMember, rfl⟩
    rcases List.mem_map.mp rightMember with ⟨there, thereMember, sameId⟩
    have bound : first + 1 < table.length :=
      Nat.lt_of_le_of_lt less (List.getElem?_eq_some_iff.mp rightFound).1
    have belongs := settled first left here leftFound bound hereMember
    have leaves := (sound.placed first left leftFound).belongsHere_iff.mp belongs
    exact leaves (sameId ▸ (sound.placed second right rightFound).shares there thereMember first less)
  intro first second left right id leftFound rightFound leftMember rightMember
  have notLess := ordered first second left right id leftFound rightFound leftMember rightMember
  have notGreater := ordered second first right left id rightFound leftFound rightMember leftMember
  omega

theorem splitsSettled_of_settled (sound : PoolSound own kSize table frames)
    (settled : Settled own table frames) (finished : frames = []) : SplitsSettled table := by
  intro depth bucket node found has member
  apply (sound.placed depth bucket found).belongsHere_iff.mpr
  exact settled depth bucket node found has (by rw [finished]; rfl) member

theorem not_splitsSettled_of_misplaced (sound : PoolSound own kSize table frames)
    (misplaced : Misplaced own table frames) : ¬SplitsSettled table := by
  rcases misplaced with ⟨depth, bucket, node, found, has, _, member, stays⟩
  intro settled
  exact stays ((sound.placed depth bucket found).belongsHere_iff.mp (settled depth bucket node found has member))

end AddPool

/-- When all calls have returned, the table is well placed exactly when none of
their steps was a stale push. -/
theorem concurrent_adds_settled_iff (own : U160) (kSize : UInt8) (calls : List TableCall)
    (table : Chain) (answers : List (Option Bool)) (nodes : List NodeInfo) (schedule : List Nat)
    (final : AddPool) (built : Bucket.performAll own kSize calls = some (table, answers))
    (ran : AddPool.run (AddPool.start table nodes) schedule = some final) (finished : final.Finished) :
    (SplitsSettled final.shared ∧ BucketsDisjoint final.shared) <->
      PartialRun.Permitted (Pool.step AddFrame.advance) (fun pool task => ¬StalePush pool task)
        (AddPool.start table nodes) schedule := by
  have live : Live own kSize 0 table := by
    rcases performAll_live own kSize calls with ⟨table', answers', built', live⟩
    rw [built] at built'
    cases built'
    exact live
  have startSound := AddPool.start_sound live nodes
  have finalSound : final.Sound own kSize :=
    PartialRun.run_invariant (fun _ _ _ sound stepped => sound.step stepped) startSound ran
  constructor
  · rintro ⟨settled, _⟩
    by_contra stale
    refine AddPool.not_splitsSettled_of_misplaced finalSound ?_ settled
    exact PartialRun.run_broken_of_not_permitted
      (fun _ _ _ sound stepped => AddPool.Sound.step sound stepped)
      (fun _ _ _ sound stale stepped => AddPool.misplaced_of_stalePush sound (not_not.mp stale) stepped)
      (fun _ _ _ sound misplaced stepped => AddPool.misplaced_step sound misplaced stepped)
      startSound stale ran
  · intro fresh
    have preserved : forall (pool : AddPool) (task : Nat) (next : AddPool),
        pool.Sound own kSize ∧ Settled own pool.shared pool.frames -> ¬StalePush pool task ->
        Pool.step AddFrame.advance pool task = some next ->
        next.Sound own kSize ∧ Settled own next.shared next.frames :=
      fun _ _ _ holds fresh stepped =>
        ⟨holds.1.step stepped, AddPool.settled_step holds.1 holds.2 fresh stepped⟩
    have both := PartialRun.run_invariant_of_permitted preserved
      ⟨startSound, AddPool.start_settled live nodes⟩ fresh ran
    have settled := AddPool.splitsSettled_of_settled finalSound both.2 finished
    exact ⟨settled, AddPool.bucketsDisjoint finalSound settled⟩

/-! ## A schedule with a stale push -/

namespace StaleSchedule

def addr : SocketAddr := .v4 0x7f000001 1337

/-- Belongs to the first bucket of a table around the id zero. -/
def far : NodeInfo := ⟨.new 0x80000000000000000000000000000000 0, addr⟩

/-- These two belong to the second bucket. -/
def near : NodeInfo := ⟨.new 0x40000000000000000000000000000000 0, addr⟩
def nearToo : NodeInfo := ⟨.new 0x40000000000000000000000000000000 1, addr⟩

/-- The first call reads the length of the empty bucket.  The next two fill the
bucket, the last one splits it, and only then does the first call store. -/
def schedule : List Nat :=
  [0, 0] ++ List.replicate 3 1 ++ List.replicate 3 2 ++ List.replicate 16 3 ++ [0]

def pool : AddPool := AddPool.start (Bucket.root U160.min 2) [nearToo, far, near, nearToo]

def final : AddPool where
  shared := [⟨U160.min, 0, 2, [far, nearToo]⟩, ⟨U160.min, 1, 2, [near, nearToo]⟩]
  tasks := [[], [], [], []]

theorem ran : AddPool.run pool schedule = some final := by decide +kernel

end StaleSchedule

theorem concurrent_adds_duplicate :
    AddPool.run StaleSchedule.pool StaleSchedule.schedule = some StaleSchedule.final ∧
      StaleSchedule.final.Finished ∧ ¬SplitsSettled StaleSchedule.final.shared ∧
      ¬BucketsDisjoint StaleSchedule.final.shared := by
  refine ⟨StaleSchedule.ran, rfl, ?_, ?_⟩
  · intro settled
    have belongs := settled 0 _ StaleSchedule.nearToo rfl (by decide) (by decide)
    revert belongs
    decide
  · intro disjoint
    have same := disjoint 0 1 _ _ StaleSchedule.nearToo.id rfl rfl (by decide) (by decide)
    cases same

theorem concurrent_adds_settled_iff_stale :
    Bucket.performAll U160.min 2 [] = some (Bucket.root U160.min 2, []) ∧
      ((SplitsSettled StaleSchedule.final.shared ∧ BucketsDisjoint StaleSchedule.final.shared) <->
        PartialRun.Permitted (Pool.step AddFrame.advance) (fun pool task => ¬StalePush pool task)
          StaleSchedule.pool StaleSchedule.schedule) :=
  ⟨rfl, concurrent_adds_settled_iff U160.min 2 [] _ [] _ _ _ rfl StaleSchedule.ran rfl⟩

end DhtExplorer
