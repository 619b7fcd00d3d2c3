import DhtExplorer.BucketConcurrency

namespace DhtExplorer

open TaskPool (Pool)

/-!
# Adding and removing at the same time

Calls of `add` and `remove` run on one table, cut at the points where another task
can be scheduled.  `add` reads the length of a bucket twice, with nothing held in
between.  It relies on the second length to be the first one, but a `remove` that
gets in between makes it smaller: then `add` neither stores nor splits, and unwraps
a next bucket that was never set.

Unless a call panics in this way, nothing goes wrong.  No interleaving is stuck, since
the locks are taken in the order of the buckets, and none is endless, since every step
loses weight.  What a `remove` returns is left out: its caller only logs it.
-/

inductive RemoveStage where
  | check
  | erase
deriving DecidableEq, Repr

/-- A call of `remove` on the bucket at the given depth. -/
structure RemoveFrame where
  depth : Nat
  id : U160
  stage : RemoveStage
deriving DecidableEq, Repr

/-- One step of a call; the contact is erased under the write lock. -/
def RemoveFrame.advance (table : Chain) (locked : Bool) (frame : RemoveFrame) : Option (Chain × List RemoveFrame) :=
  match table[frame.depth]? with
  | none => none
  | some self =>
      match frame.stage with
      | .check =>
          if !decide (frame.depth + 1 < table.length) || self.idBelongsHere frame.id then
            some (table, [{ frame with stage := .erase }])
          else some (table, [{ frame with depth := frame.depth + 1 }])
      | .erase =>
          if locked then none
          else
            match self.nodes.findIdx? (fun stored => stored.id == frame.id) with
            | some index => some (table.set frame.depth { self with nodes := self.nodes.eraseIdx index }, [])
            | none => some (table, [])

inductive TableFrame where
  | add (frame : AddFrame)
  | remove (frame : RemoveFrame)
deriving DecidableEq, Repr

namespace TableFrame

def depth : TableFrame -> Nat
  | add frame => frame.depth
  | remove frame => frame.depth

def asAdd : TableFrame -> Option AddFrame
  | add frame => some frame
  | remove _ => none

def advance (table : Chain) (frames : List TableFrame) : TableFrame -> Option (Chain × List TableFrame)
  | add frame =>
      (frame.advance table (frames.filterMap asAdd)).map fun (table, frames) => (table, frames.map add)
  | remove frame =>
      (frame.advance table ((frames.filterMap asAdd).any (AddFrame.holds frame.depth))).map fun (table, frames) =>
        (table, frames.map remove)

end TableFrame

abbrev TablePool := Pool Chain TableFrame

def TableCall.frame : TableCall -> TableFrame
  | add node => .add ⟨0, node, .checkNext⟩
  | remove id => .remove ⟨0, id, .check⟩

namespace TablePool

/-- All calls enter at the first bucket. -/
def start (table : Chain) (calls : List TableCall) : TablePool where
  shared := table
  tasks := calls.map fun call => [call.frame]

def run (pool : TablePool) (schedule : List Nat) : Option TablePool :=
  PartialRun.run (Pool.step TableFrame.advance) pool schedule

/-- A call is about to unwrap a next bucket that is not set. -/
def Panics (pool : TablePool) : Prop :=
  Exists fun frame : AddFrame => Exists fun self : Bucket =>
    .add frame ∈ pool.frames ∧ frame.stage = .route ∧ pool.shared[frame.depth]? = some self ∧
    self.belongsHere frame.node = false ∧ ¬HasNext pool.shared frame.depth

end TablePool

variable {own : U160} {kSize : UInt8} {table table' : Chain} {frames others : List TableFrame} {frame : AddFrame}
  {self : Bucket} {depth : Nat}

/-! ## What one step can do -/

/-- An upper bound on the steps of a call in one bucket. -/
def AddStage.rank (kSize : UInt8) : AddStage -> Nat
  | .storeHere => 1
  | .storeUnsplit => 1
  | .route => 2
  | .split index => 3 + (kSize.toNat - index)
  | .lockNodes => kSize.toNat + 4
  | .setNext => kSize.toNat + 5
  | .recheckLen => kSize.toNat + 6
  | .recheckNext => kSize.toNat + 7
  | .checkLen => kSize.toNat + 8
  | .checkNext => kSize.toNat + 9

namespace AddFrame

/-- What holds of a call whatever the others do. -/
structure Entered (own : U160) (table : Chain) (frame : AddFrame) : Prop where
  inside : frame.depth < table.length
  shares : SharesPrefix own frame.node.id frame.depth
  opened : frame.splits frame.depth = true -> HasNext table frame.depth

/-- What a call has to rely on so as not to panic. -/
def Assured (own : U160) (kSize : UInt8) (table : Chain) (frame : AddFrame) : Prop :=
  match frame.stage with
  | .recheckNext => HasNext table frame.depth ∨ Full kSize table frame.depth ∨ Leaves own frame.node.id frame.depth
  | .recheckLen => HasNext table frame.depth ∨ Full kSize table frame.depth ∨ Leaves own frame.node.id frame.depth
  | .route => HasNext table frame.depth ∨ Leaves own frame.node.id frame.depth
  | _ => True

theorem Entered.mono (entered : frame.Entered own table) (longer : table.length ≤ table'.length) :
    frame.Entered own table' :=
  ⟨Nat.lt_of_lt_of_le entered.inside longer, entered.shares,
    fun splitting => Nat.lt_of_lt_of_le (entered.opened splitting) longer⟩

end AddFrame

/-- All moves of a call of `add`.  Most only change what it does next. -/
inductive AddMove (own : U160) (kSize : UInt8) (table : Chain) (frame : AddFrame) :
    Chain -> List AddFrame -> Prop where
  | goes (stage : AddStage) (later : stage.rank kSize < frame.stage.rank kSize)
      (opened : AddFrame.splits frame.depth { frame with stage := stage } = true -> HasNext table frame.depth)
      (assured : frame.Assured own kSize table ->
        ({ frame with stage := stage } : AddFrame).Assured own kSize table) :
      AddMove own kSize table frame table [{ frame with stage := stage }]
  | descends (stage : frame.stage = .route) (has : HasNext table frame.depth)
      (stays : ¬Leaves own frame.node.id frame.depth) :
      AddMove own kSize table frame table [{ frame with depth := frame.depth + 1, stage := .checkNext }]
  | returns (stage : frame.stage = .setNext) : AddMove own kSize table frame table []
  | stores (stage : frame.stage = .storeUnsplit ∨ frame.stage = .storeHere) (self : Bucket)
      (found : table[frame.depth]? = some self) :
      AddMove own kSize table frame (table.set frame.depth (self.addOrUpdate frame.node)) []
  | opens (stage : frame.stage = .setNext) (self : Bucket) (found : table[frame.depth]? = some self)
      (last : ¬HasNext table frame.depth) (shallow : frame.depth < 159) :
      AddMove own kSize table frame (table ++ [self.child]) [{ frame with stage := .lockNodes }]
  | hands (index : Nat) (stage : frame.stage = .split index) (self : Bucket)
      (found : table[frame.depth]? = some self) (has : HasNext table frame.depth) (moved : NodeInfo)
      (slot : self.nodes[index]? = some moved) (stays : ¬Leaves own moved.id frame.depth) :
      AddMove own kSize table frame
        (table.set frame.depth { self with nodes := VecOps.swapRemove self.nodes index })
        [{ depth := frame.depth + 1, node := moved, stage := .checkNext }, frame]

private theorem goes_idle {stage : AddStage} (later : stage.rank kSize < frame.stage.rank kSize)
    (idle : AddFrame.splits frame.depth { frame with stage := stage } = false)
    (assured : frame.Assured own kSize table ->
      ({ frame with stage := stage } : AddFrame).Assured own kSize table) :
    AddMove own kSize table frame table [{ frame with stage := stage }] := by
  refine .goes stage later (fun splitting => ?_) assured
  rw [idle] at splitting
  cases splitting

/-- The inversion lemma of a call of `add`. -/
theorem AddFrame.moves {adds replacement : List AddFrame} (entered : frame.Entered own table)
    (found : table[frame.depth]? = some self) (placed : Placed own kSize frame.depth self)
    (advanced : frame.advance table adds = some (table', replacement)) :
    AddMove own kSize table frame table' replacement := by
  rw [AddFrame.advance, found] at advanced
  rcases frame with ⟨at_, node, stage⟩
  cases stage with
  | checkNext =>
      dsimp only at advanced
      cases advanced
      by_cases has : at_ + 1 < table.length
      · rw [if_pos (decide_eq_true has)]
        exact goes_idle (by simp only [AddStage.rank]; omega) rfl fun _ => Or.inl has
      · rw [if_neg (fun decided => has (of_decide_eq_true decided))]
        exact goes_idle (by simp only [AddStage.rank]; omega) rfl fun _ => trivial
  | checkLen =>
      rcases Option.ite_none_left_eq_some.mp advanced with ⟨_, advanced⟩
      cases advanced
      by_cases room : self.nodes.length < self.kSize.toNat
      · rw [if_pos room]
        exact goes_idle (by simp only [AddStage.rank]; omega) rfl fun _ => trivial
      · rw [if_neg room]
        exact goes_idle (by simp only [AddStage.rank]; omega) rfl
          fun _ => Or.inr (Or.inl (placed.full_of_no_room found room))
  | storeUnsplit =>
      rcases Option.ite_none_left_eq_some.mp advanced with ⟨_, advanced⟩
      cases advanced
      exact .stores (Or.inl rfl) self found
  | recheckNext =>
      dsimp only at advanced
      cases advanced
      by_cases has : at_ + 1 < table.length
      · rw [if_pos (decide_eq_true has)]
        exact goes_idle (by simp only [AddStage.rank]; omega) rfl fun _ => Or.inl has
      · rw [if_neg (fun decided => has (of_decide_eq_true decided))]
        exact goes_idle (by simp only [AddStage.rank]; omega) rfl fun assured => assured
  | recheckLen =>
      rcases Option.ite_none_left_eq_some.mp advanced with ⟨_, advanced⟩
      cases advanced
      by_cases full : self.nodes.length = self.kSize.toNat
      · rw [if_pos full]
        exact goes_idle (by simp only [AddStage.rank]; omega) rfl fun _ => trivial
      · rw [if_neg full]
        refine goes_idle (by simp only [AddStage.rank]; omega) rfl fun assured => ?_
        rcases assured with has | all | leaves
        · exact Or.inl has
        · exact absurd ((all self found).trans (placed.kSize_eq ▸ rfl)) full
        · exact Or.inr leaves
  | setNext =>
      dsimp only at advanced
      by_cases deepest : self.bucketIndex = MAX_BUCKET_INDEX
      · rw [if_pos deepest] at advanced
        cases advanced
        exact .returns rfl
      · rw [if_neg deepest] at advanced
        rcases Option.ite_none_left_eq_some.mp advanced with ⟨_, advanced⟩
        by_cases has : at_ + 1 < table.length
        · rw [if_pos (decide_eq_true has)] at advanced
          cases advanced
          exact goes_idle (by simp only [AddStage.rank]; omega) rfl fun _ => Or.inl has
        · rw [if_neg (fun decided => has (of_decide_eq_true decided))] at advanced
          cases advanced
          exact .opens rfl self found has (placed.shallow_of_ne deepest)
  | lockNodes =>
      rcases Option.ite_none_left_eq_some.mp advanced with ⟨_, advanced⟩
      cases advanced
      exact .goes _ (by simp only [AddStage.rank]; omega) (fun _ => entered.opened (beq_self_eq_true _)) fun _ => trivial
  | split index =>
      have has : HasNext table at_ := entered.opened (beq_self_eq_true _)
      dsimp only at advanced
      cases slot : self.nodes[index]? with
      | none =>
          rw [slot] at advanced
          cases advanced
          exact goes_idle (by simp only [AddStage.rank]; omega) rfl fun _ => Or.inl has
      | some moved =>
          rw [slot] at advanced
          dsimp only at advanced
          by_cases belongs : self.belongsHere moved = true
          · rw [if_pos belongs] at advanced
            cases advanced
            have inside := (List.getElem?_eq_some_iff.mp slot).1
            have bound := placed.length_le
            exact .goes _ (by simp only [AddStage.rank]; omega) (fun _ => has) fun _ => trivial
          · rw [if_neg belongs] at advanced
            rcases Option.ite_none_right_eq_some.mp advanced with ⟨_, advanced⟩
            cases advanced
            exact .hands index rfl self found has moved slot fun leaves => belongs (placed.belongsHere_iff.mpr leaves)
  | route =>
      dsimp only at advanced
      by_cases belongs : self.belongsHere node = true
      · rw [if_pos belongs] at advanced
        cases advanced
        exact goes_idle (by simp only [AddStage.rank]; omega) rfl fun _ => trivial
      · rw [if_neg belongs] at advanced
        rcases Option.ite_none_right_eq_some.mp advanced with ⟨next, advanced⟩
        cases advanced
        have has : at_ + 1 < table.length := of_decide_eq_true next
        exact .descends rfl has fun leaves => belongs (placed.belongsHere_iff.mpr leaves)
  | storeHere =>
      rcases Option.ite_none_left_eq_some.mp advanced with ⟨_, advanced⟩
      cases advanced
      exact .stores (Or.inr rfl) self found

/-- All moves of a call of `remove`. -/
inductive RemoveMove (table : Chain) (frame : RemoveFrame) : Chain -> List RemoveFrame -> Prop where
  | locates (stage : frame.stage = .check) : RemoveMove table frame table [{ frame with stage := .erase }]
  | descends (stage : frame.stage = .check) (has : HasNext table frame.depth) :
      RemoveMove table frame table [{ frame with depth := frame.depth + 1 }]
  | misses (stage : frame.stage = .erase) : RemoveMove table frame table []
  | erases (stage : frame.stage = .erase) (self : Bucket) (found : table[frame.depth]? = some self) (index : Nat)
      (inside : index < self.nodes.length) (member : frame.id ∈ self.nodes.map NodeInfo.id) :
      RemoveMove table frame (table.set frame.depth { self with nodes := self.nodes.eraseIdx index }) []

theorem RemoveFrame.moves {frame : RemoveFrame} {locked : Bool} {replacement : List RemoveFrame}
    (advanced : frame.advance table locked = some (table', replacement)) : RemoveMove table frame table' replacement := by
  unfold RemoveFrame.advance at advanced
  cases found : table[frame.depth]? with
  | none =>
      rw [found] at advanced
      cases advanced
  | some self =>
      rw [found] at advanced
      rcases frame with ⟨at_, id, stage⟩
      cases stage with
      | check =>
          dsimp only at advanced
          split at advanced
          · cases advanced
            exact .locates rfl
          · rename_i goesOn
            cases advanced
            have has : at_ + 1 < table.length := by
              by_contra last
              exact goesOn (by rw [decide_eq_false last]; rfl)
            exact .descends rfl has
      | erase =>
          rcases Option.ite_none_left_eq_some.mp advanced with ⟨_, advanced⟩
          split at advanced
          · rename_i index at_index
            cases advanced
            have inside := (List.findIdx?_eq_some_iff_findIdx_eq.mp at_index).1
            refine .erases rfl self found index inside ?_
            by_contra absent
            rw [(findIdx?_eq_none_iff_id self.nodes id).mpr absent] at at_index
            cases at_index
          · cases advanced
            exact .misses rfl

inductive TableMove (own : U160) (kSize : UInt8) (table : Chain) : TableFrame -> Chain -> List TableFrame -> Prop where
  | add {frame : AddFrame} {table' : Chain} {replacement : List AddFrame}
      (move : AddMove own kSize table frame table' replacement) :
      TableMove own kSize table (.add frame) table' (replacement.map .add)
  | remove {frame : RemoveFrame} {table' : Chain} {replacement : List RemoveFrame}
      (move : RemoveMove table frame table' replacement) :
      TableMove own kSize table (.remove frame) table' (replacement.map .remove)

/-! ## What holds in every interleaving -/

def TableFrame.Entered (own : U160) (table : Chain) : TableFrame -> Prop
  | add frame => frame.Entered own table
  | remove frame => frame.depth < table.length

structure CallsSound (own : U160) (kSize : UInt8) (table : Chain) (frames : List TableFrame) : Prop where
  placed : forall (depth : Nat) (bucket : Bucket), table[depth]? = some bucket -> Placed own kSize depth bucket
  entered : forall frame, frame ∈ frames -> frame.Entered own table

theorem TableFrame.Entered.mono {frame : TableFrame} (entered : frame.Entered own table)
    (longer : table.length ≤ table'.length) : frame.Entered own table' := by
  cases frame with
  | add frame => exact AddFrame.Entered.mono entered longer
  | remove frame => exact Nat.lt_of_lt_of_le entered longer

namespace CallsSound

theorem of_perm {frames' : List TableFrame} (perm : frames.Perm frames') (sound : CallsSound own kSize table frames) :
    CallsSound own kSize table frames' :=
  ⟨sound.placed, fun frame member => sound.entered frame (perm.mem_iff.mpr member)⟩

theorem bucket (sound : CallsSound own kSize table frames) (member : .add frame ∈ frames) :
    Exists fun self => table[frame.depth]? = some self ∧ Placed own kSize frame.depth self := by
  have entered : frame.Entered own table := sound.entered _ member
  exact ⟨_, List.getElem?_eq_getElem entered.inside, sound.placed _ _ (List.getElem?_eq_getElem entered.inside)⟩

theorem moves (sound : CallsSound own kSize table frames) {moving : TableFrame} (member : moving ∈ frames)
    {replacement : List TableFrame} (advanced : moving.advance table frames = some (table', replacement)) :
    TableMove own kSize table moving table' replacement := by
  cases moving with
  | add frame =>
      rcases Option.map_eq_some_iff.mp advanced with ⟨⟨_, _⟩, taken, same⟩
      cases same
      rcases sound.bucket member with ⟨self, found, placed⟩
      exact .add (AddFrame.moves (sound.entered _ member) found placed taken)
  | remove frame =>
      rcases Option.map_eq_some_iff.mp advanced with ⟨⟨_, _⟩, taken, same⟩
      cases same
      exact .remove (RemoveFrame.moves taken)

/-- A move keeps every bucket placed, never makes the chain shorter, and leads
where the calls may be. -/
theorem moved (sound : CallsSound own kSize table frames) {moving : TableFrame} (member : moving ∈ frames)
    {replacement : List TableFrame} (move : TableMove own kSize table moving table' replacement) :
    (forall (depth : Nat) (bucket : Bucket), table'[depth]? = some bucket -> Placed own kSize depth bucket) ∧
      table.length ≤ table'.length ∧ forall new, new ∈ replacement -> new.Entered own table' := by
  have entered := sound.entered moving member
  cases move with
  | @add frame _ _ move =>
      have here : frame.Entered own table := entered
      cases move with
      | goes stage later opened assured =>
          refine ⟨sound.placed, le_refl _, fun new newMember => ?_⟩
          rw [List.map_singleton, List.mem_singleton] at newMember
          subst newMember
          exact ⟨here.inside, here.shares, opened⟩
      | descends stage has stays =>
          refine ⟨sound.placed, le_refl _, fun new newMember => ?_⟩
          rw [List.map_singleton, List.mem_singleton] at newMember
          subst newMember
          exact ⟨has, here.shares.succ (not_not.mp stays), fun splitting => by cases splitting⟩
      | returns stage => exact ⟨sound.placed, le_refl _, fun new newMember => absurd newMember List.not_mem_nil⟩
      | stores stage self found =>
          have placed := sound.placed _ self found
          exact ⟨placed_set sound.placed (placed.addOrUpdate here.shares), Nat.le_of_eq List.length_set.symm,
            fun new newMember => absurd newMember List.not_mem_nil⟩
      | opens stage self found last shallow =>
          have placed := sound.placed _ self found
          have lengthEq : table.length = frame.depth + 1 := Nat.le_antisymm (Nat.le_of_not_lt last) here.inside
          have longer : (table ++ [self.child]).length = frame.depth + 2 := by
            rw [List.length_append, lengthEq, List.length_singleton]
          refine ⟨placed_append sound.placed (lengthEq ▸ placed.child shallow), by omega, fun new newMember => ?_⟩
          rw [List.map_singleton, List.mem_singleton] at newMember
          subst newMember
          refine ⟨?_, here.shares, fun _ => ?_⟩
          · change frame.depth < _
            omega
          · change frame.depth + 1 < _
            omega
      | hands index stage self found has moved slot stays =>
          have placed := sound.placed _ self found
          have same : table.length ≤
              (table.set frame.depth { self with nodes := VecOps.swapRemove self.nodes index }).length := by
            rw [List.length_set]
          refine ⟨placed_set sound.placed (placed_swapRemove placed slot), same, fun new newMember => ?_⟩
          rcases List.mem_cons.mp newMember with rfl | again
          · exact ⟨Nat.lt_of_lt_of_le has same,
              (placed.shares moved (List.mem_of_getElem? slot)).succ (not_not.mp stays),
              fun splitting => by cases splitting⟩
          · rw [List.map_singleton, List.mem_singleton] at again
            subst again
            exact here.mono same
  | @remove frame _ _ move =>
      have here : frame.depth < table.length := entered
      cases move with
      | locates stage =>
          refine ⟨sound.placed, le_refl _, fun new newMember => ?_⟩
          rw [List.map_singleton, List.mem_singleton] at newMember
          subst newMember
          exact here
      | descends stage has =>
          refine ⟨sound.placed, le_refl _, fun new newMember => ?_⟩
          rw [List.map_singleton, List.mem_singleton] at newMember
          subst newMember
          exact has
      | misses stage => exact ⟨sound.placed, le_refl _, fun new newMember => absurd newMember List.not_mem_nil⟩
      | erases stage self found index inside stored =>
          have placed := sound.placed _ self found
          exact ⟨placed_set sound.placed (placed.sublist (List.eraseIdx_sublist _ _)),
            Nat.le_of_eq List.length_set.symm, fun new newMember => absurd newMember List.not_mem_nil⟩

/-- The step lemma. -/
theorem step {moving : TableFrame} (sound : CallsSound own kSize table (moving :: others))
    {replacement : List TableFrame} (move : TableMove own kSize table moving table' replacement) :
    CallsSound own kSize table' (replacement ++ others) := by
  rcases sound.moved List.mem_cons_self move with ⟨placed, longer, entered⟩
  refine ⟨placed, fun other member => ?_⟩
  rcases List.mem_append.mp member with new | old
  · exact entered other new
  · exact (sound.entered other (List.mem_cons_of_mem _ old)).mono longer

end CallsSound

/-! ## Some call can always move -/

theorem AddFrame.split_of_holds (held : frame.holds depth = true) :
    frame.depth = depth ∧ Exists fun index => frame.stage = .split index := by
  rcases frame with ⟨at_, node, stage⟩
  cases stage with
  | split index => exact ⟨beq_iff_eq.mp held, index, rfl⟩
  | _ => cases held

/-- The redistribution loop waits for nobody. -/
theorem AddFrame.split_advances {adds : List AddFrame} {index : Nat} (entered : frame.Entered own table)
    (found : table[frame.depth]? = some self) (stage : frame.stage = .split index) :
    (frame.advance table adds).isSome = true := by
  rcases frame with ⟨at_, node, _⟩
  cases stage
  have has : at_ + 1 < table.length := entered.opened (beq_self_eq_true _)
  rw [AddFrame.advance, found]
  dsimp only
  cases self.nodes[index]? with
  | none => rfl
  | some moved =>
      dsimp only
      split
      · rfl
      · rw [if_pos (decide_eq_true has)]
        rfl

/-- Any other call moves on, waits for a redistribution loop, or panics. -/
theorem AddFrame.advances_or_waits (adds : List AddFrame) (entered : frame.Entered own table)
    (found : table[frame.depth]? = some self) (placed : Placed own kSize frame.depth self) :
    (frame.advance table adds).isSome = true ∨ adds.any (AddFrame.holds frame.depth) = true ∨
      (frame.stage = .route ∧ self.belongsHere frame.node = false ∧ ¬HasNext table frame.depth) := by
  by_cases locked : adds.any (AddFrame.holds frame.depth) = true
  · exact Or.inr (Or.inl locked)
  have goes : frame.stage ≠ .route -> (frame.advance table adds).isSome = true := by
    intro notRoute
    rcases frame with ⟨at_, node, stage⟩
    have index : self.bucketIndex.toNat ≠ 255 := by
      have bound := placed.depth_le
      rw [placed.bucketIndex_eq]
      dsimp only at bound ⊢
      omega
    cases stage with
    | split index => exact split_advances entered found rfl
    | route => exact absurd rfl notRoute
    | setNext =>
        rw [AddFrame.advance, found]
        dsimp only
        rw [if_neg index]
        split
        · rfl
        · split <;> rfl
    | _ => simp [AddFrame.advance, found, locked]
  by_cases stage : frame.stage = .route
  · by_cases safe : self.belongsHere frame.node = true ∨ HasNext table frame.depth
    · refine Or.inl ?_
      rcases frame with ⟨at_, node, _⟩
      cases stage
      rw [AddFrame.advance, found]
      dsimp only
      split
      · rfl
      · rename_i leaves
        have has : at_ + 1 < table.length := safe.resolve_left leaves
        rw [if_pos (decide_eq_true has)]
        rfl
    · exact Or.inr (Or.inr ⟨stage, Bool.eq_false_iff.mpr fun belongs => safe (Or.inl belongs),
        fun has => safe (Or.inr has)⟩)
  · exact Or.inl (goes stage)

theorem RemoveFrame.advances_or_waits {frame : RemoveFrame} (locked : Bool) (inside : frame.depth < table.length) :
    (frame.advance table locked).isSome = true ∨ locked = true := by
  rcases frame with ⟨at_, id, stage⟩
  have found : table[at_]? = some table[at_] := List.getElem?_eq_getElem inside
  cases locked with
  | true => exact Or.inr rfl
  | false =>
      refine Or.inl ?_
      rw [RemoveFrame.advance, found]
      cases stage with
      | check =>
          dsimp only
          split <;> rfl
      | erase =>
          dsimp only
          split
          · rename_i impossible
            cases impossible
          · split <;> rfl

/-- Whoever waits does so for a call at the same bucket that can move, unless a call
panics. -/
theorem CallsSound.waits (sound : CallsSound own kSize table frames)
    (calm : forall (frame : AddFrame) self, .add frame ∈ frames -> frame.stage = .route ->
      table[frame.depth]? = some self -> self.belongsHere frame.node = false -> HasNext table frame.depth)
    {moving : TableFrame} (member : moving ∈ frames) :
    (moving.advance table frames).isSome = true ∨
      Exists fun holder => holder ∈ frames ∧ moving.depth ≤ holder.depth ∧
        (TableFrame.advance table frames holder).isSome = true := by
  have held : forall depth, (frames.filterMap TableFrame.asAdd).any (AddFrame.holds depth) = true ->
      Exists fun holder => holder ∈ frames ∧ depth ≤ holder.depth ∧
        (TableFrame.advance table frames holder).isSome = true := by
    intro depth locked
    rcases List.any_eq_true.mp locked with ⟨holder, holderMember, holds⟩
    rcases List.mem_filterMap.mp holderMember with ⟨other, otherMember, asAdd⟩
    rcases AddFrame.split_of_holds holds with ⟨rfl, index, stage⟩
    cases other with
    | add frame =>
        cases asAdd
        rcases sound.bucket otherMember with ⟨self, found, _⟩
        have entered : holder.Entered own table := sound.entered _ otherMember
        exact ⟨_, otherMember, le_refl _, by
          rw [TableFrame.advance, Option.isSome_map]
          exact AddFrame.split_advances entered found stage⟩
    | remove frame => cases asAdd
  have entered := sound.entered moving member
  cases moving with
  | add frame =>
      rcases sound.bucket member with ⟨self, found, placed⟩
      rcases AddFrame.advances_or_waits (frames.filterMap TableFrame.asAdd) entered found placed with
        moves | locked | ⟨stage, leaves, last⟩
      · exact Or.inl (by rwa [TableFrame.advance, Option.isSome_map])
      · exact Or.inr (held _ locked)
      · exact absurd (calm frame self member stage found leaves) last
  | remove frame =>
      rcases RemoveFrame.advances_or_waits ((frames.filterMap TableFrame.asAdd).any (AddFrame.holds frame.depth))
        entered with moves | locked
      · exact Or.inl (by rwa [TableFrame.advance, Option.isSome_map])
      · exact Or.inr (held _ locked)

theorem TableMove.rises {moving : TableFrame} {replacement : List TableFrame}
    (move : TableMove own kSize table moving table' replacement) :
    replacement.Pairwise (fun upper lower => lower.depth < upper.depth) ∧
      forall new, new ∈ replacement -> moving.depth ≤ new.depth := by
  cases move with
  | @add frame _ _ move =>
      cases move with
      | goes stage later opened assured => simp [TableFrame.depth]
      | descends stage has stays => simp [TableFrame.depth]
      | returns stage => simp
      | stores stage self found => simp
      | opens stage self found last shallow => simp [TableFrame.depth]
      | hands index stage self found has moved slot stays => simp [TableFrame.depth]
  | @remove frame _ _ move =>
      cases move with
      | locates stage => simp [TableFrame.depth]
      | descends stage has => simp [TableFrame.depth]
      | misses stage => simp
      | erases stage self found index inside member => simp

/-! ## Every move loses weight -/

/-- The steps of a call in one bucket, and of a contact that is handed on from it. -/
def LEVEL_STEPS : Nat := 265

def TableFrame.weight (kSize : UInt8) : TableFrame -> Nat
  | add frame => (160 - frame.depth) * LEVEL_STEPS + frame.stage.rank kSize
  | remove frame =>
      (160 - frame.depth) * LEVEL_STEPS +
        match frame.stage with
        | .check => 2
        | .erase => 1

def Bucket.load (self : Bucket) : Nat := (160 - self.bucketIndex.toNat) * LEVEL_STEPS * self.nodes.length

/-- A stored contact may have to be handed on by a split. -/
def Bucket.loads (table : Chain) : Nat := (table.map load).sum

theorem Placed.load_withNodes (placed : Placed own kSize depth self) (nodes : List NodeInfo) :
    ({ self with nodes := nodes } : Bucket).load = (160 - depth) * LEVEL_STEPS * nodes.length := by
  rw [Bucket.load, placed.bucketIndex_eq]

theorem Placed.load_addOrUpdate (placed : Placed own kSize depth self) (node : NodeInfo) :
    (self.addOrUpdate node).load ≤ self.load + (160 - depth) * LEVEL_STEPS := by
  have length : (self.addOrUpdate node).nodes.length ≤ self.nodes.length + 1 := by
    rcases Bucket.addOrUpdate_cases self node with ⟨_, perm⟩ | ⟨_, _, appended⟩ | ⟨_, _, same⟩
    · rw [perm.length_eq]
      exact Nat.le_succ _
    · rw [appended, List.length_append]
      exact le_refl _
    · rw [same]
      exact Nat.le_succ _
  rw [Bucket.load, Bucket.load, Bucket.addOrUpdate_bucketIndex, placed.bucketIndex_eq, <- Nat.mul_succ]
  exact Nat.mul_le_mul_left _ length

theorem CallsSound.lighter (sound : CallsSound own kSize table frames) {moving : TableFrame}
    (member : moving ∈ frames) {replacement : List TableFrame}
    (move : TableMove own kSize table moving table' replacement) :
    Bucket.loads table' + (replacement.map (TableFrame.weight kSize)).sum <
      Bucket.loads table + moving.weight kSize := by
  have entered := sound.entered moving member
  have small := kSize.toNat_lt
  cases move with
  | @add frame _ _ move =>
      rcases sound.bucket member with ⟨here, there, herePlaced⟩
      have depth_le := herePlaced.depth_le
      cases move with
      | goes stage later opened assured =>
          simp only [List.map_cons, List.map_nil, List.sum_cons, List.sum_nil, TableFrame.weight]
          omega
      | descends stage has stays =>
          simp only [List.map_cons, List.map_nil, List.sum_cons, List.sum_nil, TableFrame.weight, stage, AddStage.rank,
            LEVEL_STEPS]
          omega
      | returns stage =>
          simp only [List.map_nil, List.sum_nil, TableFrame.weight, stage, AddStage.rank]
          omega
      | stores stage self found =>
          have sums := VecOps.sum_map_set Bucket.load found (self.addOrUpdate frame.node)
          have bound := (sound.placed _ self found).load_addOrUpdate frame.node
          have positive : 0 < frame.stage.rank kSize := by
            rcases stage with unsplit | here
            · rw [unsplit]
              exact Nat.one_pos
            · rw [here]
              exact Nat.one_pos
          simp only [List.map_nil, List.sum_nil, TableFrame.weight, Bucket.loads]
          omega
      | opens stage self found last shallow =>
          simp only [List.map_cons, List.map_nil, List.sum_cons, List.sum_nil, TableFrame.weight, stage, AddStage.rank,
            Bucket.loads, List.map_append, List.sum_append]
          have empty : self.child.load = 0 := Nat.mul_zero _
          omega
      | hands index stage self found has moved slot stays =>
          have placed := sound.placed _ self found
          have sums := VecOps.sum_map_set Bucket.load found
            { self with nodes := VecOps.swapRemove self.nodes index }
          have length := (VecOps.swapRemove_spec slot).2.length_eq
          have whole : self.load = (160 - frame.depth) * LEVEL_STEPS * self.nodes.length :=
            placed.load_withNodes self.nodes
          rw [placed.load_withNodes (VecOps.swapRemove self.nodes index), whole, <- length, List.length_cons,
            Nat.mul_succ] at sums
          simp only [List.map_cons, List.map_nil, List.sum_cons, List.sum_nil, TableFrame.weight, AddStage.rank,
            Bucket.loads]
          have level : (160 - frame.depth) * LEVEL_STEPS = (160 - (frame.depth + 1)) * LEVEL_STEPS + LEVEL_STEPS := by
            simp only [LEVEL_STEPS]
            omega
          have fits : kSize.toNat + 9 < LEVEL_STEPS := by
            simp only [LEVEL_STEPS]
            omega
          omega
  | @remove frame _ _ move =>
      have inside : frame.depth < table.length := entered
      have depth_le := (sound.placed _ _ (List.getElem?_eq_getElem inside)).depth_le
      cases move with
      | locates stage =>
          simp only [List.map_cons, List.map_nil, List.sum_cons, List.sum_nil, TableFrame.weight, stage]
          omega
      | descends stage has =>
          simp only [List.map_cons, List.map_nil, List.sum_cons, List.sum_nil, TableFrame.weight, stage, LEVEL_STEPS]
          omega
      | misses stage =>
          simp only [List.map_nil, List.sum_nil, TableFrame.weight, stage]
          omega
      | erases stage self found index inside stored =>
          have placed := sound.placed _ self found
          have sums := VecOps.sum_map_set Bucket.load found { self with nodes := self.nodes.eraseIdx index }
          have whole : self.load = (160 - frame.depth) * LEVEL_STEPS * self.nodes.length :=
            placed.load_withNodes self.nodes
          have fewer : (160 - frame.depth) * LEVEL_STEPS * (self.nodes.eraseIdx index).length ≤
              (160 - frame.depth) * LEVEL_STEPS * self.nodes.length :=
            Nat.mul_le_mul_left _ (List.eraseIdx_sublist _ _).length_le
          rw [placed.load_withNodes (self.nodes.eraseIdx index), whole] at sums
          simp only [List.map_nil, List.sum_nil, TableFrame.weight, Bucket.loads, stage]
          omega

/-! ## No interleaving is stuck or endless -/

namespace TablePool

variable {pool next : TablePool} {task : Nat}

structure Sound (own : U160) (kSize : UInt8) (pool : TablePool) : Prop where
  calls : CallsSound own kSize pool.shared pool.frames
  nested : pool.Nested TableFrame.depth

theorem start_frames (table : Chain) (calls : List TableCall) :
    (start table calls).frames = calls.map TableCall.frame := by
  rw [Pool.frames, start, <- List.flatMap_def]
  exact List.map_eq_flatMap.symm

theorem start_sound (live : Live own kSize 0 table) (calls : List TableCall) : (start table calls).Sound own kSize := by
  have inside : 0 < table.length := List.length_pos_iff.mpr live.nonempty
  refine ⟨⟨fun depth bucket found => ?_, fun frame member => ?_⟩, fun stack member => ?_⟩
  · have placed := (live.placed found).1
    rwa [Nat.zero_add] at placed
  · rw [start_frames] at member
    rcases List.mem_map.mp member with ⟨call, _, rfl⟩
    cases call with
    | add node => exact ⟨inside, sharesPrefix_zero own node.id, fun splitting => by cases splitting⟩
    | remove id => exact inside
  · rcases List.mem_map.mp member with ⟨call, _, rfl⟩
    exact List.pairwise_singleton _ _

theorem Sound.step (sound : pool.Sound own kSize) (stepped : Pool.step TableFrame.advance pool task = some next) :
    next.Sound own kSize := by
  constructor
  · rcases Pool.step_eq_some stepped with ⟨frame, _, others, replacement, _, before, advanced, after⟩
    have move := sound.calls.moves (before.mem_iff.mpr List.mem_cons_self) advanced
    exact ((sound.calls.of_perm before).step move).of_perm after.symm
  · exact Pool.Nested.kept sound.nested stepped
      fun frame shared replacement member advanced => (sound.calls.moves member advanced).rises

/-- Unless a call panics, all have returned or one can move. -/
theorem Sound.progress (sound : pool.Sound own kSize) (calm : ¬pool.Panics) :
    pool.Finished ∨ Exists fun task => Exists fun next => Pool.step TableFrame.advance pool task = some next := by
  by_cases finished : pool.Finished
  · exact Or.inl finished
  · refine Or.inr (Pool.Nested.exists_step sound.nested finished fun frame member => ?_)
    refine sound.calls.waits (fun adding self inside stage found leaves => ?_) member
    by_contra last
    exact calm ⟨adding, self, inside, stage, found, leaves, last⟩

theorem Sound.weigh_lt (sound : pool.Sound own kSize) (stepped : Pool.step TableFrame.advance pool task = some next) :
    next.weigh Bucket.loads (TableFrame.weight kSize) < pool.weigh Bucket.loads (TableFrame.weight kSize) :=
  Pool.weigh_lt stepped fun _ _ _ member advanced => sound.calls.lighter member (sound.calls.moves member advanced)

/-- The most that a call weighs. -/
def CALL_STEPS : Nat := 160 * LEVEL_STEPS + LEVEL_STEPS

theorem weigh_start_le (table : Chain) (kSize : UInt8) (calls : List TableCall) :
    (start table calls).weigh Bucket.loads (TableFrame.weight kSize) ≤
      CALL_STEPS * ((Bucket.stored table).length + calls.length) := by
  have loads : Bucket.loads table ≤ CALL_STEPS * (Bucket.stored table).length := by
    induction table with
    | nil => exact Nat.zero_le _
    | cons self next inductionHypothesis =>
        have here : self.load ≤ CALL_STEPS * self.nodes.length := by
          apply Nat.mul_le_mul_right
          simp only [CALL_STEPS, LEVEL_STEPS]
          omega
        rw [Bucket.loads, List.map_cons, List.sum_cons, Bucket.stored_cons, List.length_append, Nat.mul_add]
        exact Nat.add_le_add here inductionHypothesis
  have small := kSize.toNat_lt
  have weights : ((calls.map TableCall.frame).map (TableFrame.weight kSize)).sum ≤ CALL_STEPS * calls.length := by
    induction calls with
    | nil => exact Nat.zero_le _
    | cons call rest inductionHypothesis =>
        have here : call.frame.weight kSize ≤ CALL_STEPS := by
          cases call <;> simp only [TableCall.frame, TableFrame.weight, AddStage.rank, CALL_STEPS, LEVEL_STEPS] <;> omega
        rw [List.map_cons, List.map_cons, List.sum_cons, List.length_cons, Nat.mul_succ, Nat.add_comm]
        exact Nat.add_le_add inductionHypothesis here
  rw [Pool.weigh, start_frames, Nat.mul_add]
  exact Nat.add_le_add loads weights

end TablePool

/-- However the steps of adds and removes are interleaved: every bucket stays within
its bounds, the schedule is no longer than the calls and the contacts allow for, and
it can go on until every call has returned, unless a call panics. -/
theorem table_calls_return (own : U160) (kSize : UInt8) (history : List TableCall) (table : Chain)
    (answers : List (Option Bool)) (built : Bucket.performAll own kSize history = some (table, answers))
    (calls : List TableCall) (schedule : List Nat) (pool : TablePool)
    (ran : TablePool.run (TablePool.start table calls) schedule = some pool) :
    (forall (depth : Nat) (bucket : Bucket), pool.shared[depth]? = some bucket -> Placed own kSize depth bucket) ∧
    schedule.length ≤ TablePool.CALL_STEPS * ((Bucket.stored table).length + calls.length) ∧
    (pool.Panics ∨ pool.Finished ∨
      Exists fun task => Exists fun next => Pool.step TableFrame.advance pool task = some next) := by
  have live := live_of_performAll built
  have started := TablePool.start_sound live calls
  have sound : pool.Sound own kSize := PartialRun.run_invariant (fun _ _ _ sound stepped => sound.step stepped) started ran
  have bound := PartialRun.run_length_le (fun _ _ _ sound stepped => TablePool.Sound.step sound stepped)
    (fun _ _ _ sound stepped => TablePool.Sound.weigh_lt sound stepped) started ran
  refine ⟨sound.calls.placed, ?_, ?_⟩
  · exact (Nat.le_add_right _ _).trans (bound.trans (TablePool.weigh_start_le table kSize calls))
  · by_cases panics : pool.Panics
    · exact Or.inl panics
    · exact Or.inr (sound.progress panics)

/-! ## A contact is removed in between -/

namespace RemovedBetween

open StaleSchedule (far near)

def oneBucket : Chain := [{ ownId := .min, bucketIndex := 0, kSize := 1, nodes := [far] }]

/-- One call reads the length, the other finds its bucket. -/
def schedule : List Nat := [0, 0, 1]

def pool : TablePool where
  shared := oneBucket
  tasks := [[.add ⟨0, near, .recheckNext⟩], [.remove ⟨0, far.id, .erase⟩]]

theorem built : Bucket.performAll .min 1 [.add far] = some (oneBucket, [none]) := by
  decide +kernel

theorem ran : TablePool.run (TablePool.start oneBucket [.add near, .remove far.id]) schedule = some pool := by
  decide +kernel

end RemovedBetween

open RemovedBetween in
theorem table_calls_return_removed_between :
    pool.Panics ∨ pool.Finished ∨ Exists fun task => Exists fun next =>
      Pool.step TableFrame.advance pool task = some next :=
  (table_calls_return .min 1 [.add StaleSchedule.far] oneBucket [none] built
    [.add StaleSchedule.near, .remove StaleSchedule.far.id] schedule pool ran).2.2

end DhtExplorer
