import DhtExplorer.LookupCall
import DhtExplorer.TableConcurrency

namespace DhtExplorer

open TaskPool (Pool)

/-!
# Lookups among other calls

Lookups run while calls of `add` and `remove` change the table.  A lookup holds nothing
between its steps, so nobody waits for it.  It waits itself where it wants to read a
bucket whose contacts are being redistributed.

Whatever the others do, it does not panic, it comes to its end, and it returns no more
contacts than fit, each of which was stored at some time.  It may miss a contact that is
moved from one bucket to the next while the lookup goes the other way, but none that
stays in the bucket where the lookup turns round.
-/

structure TableSystem where
  pool : TablePool
  lookups : List LookupCall
deriving DecidableEq, Repr

inductive TableEvent where
  | call (task : Nat)
  | lookup (index : Nat)
deriving DecidableEq, Repr

namespace TableSystem

/-- A redistribution loop holds the lock of the bucket. -/
def locked (self : TableSystem) (depth : Nat) : Bool :=
  (self.pool.frames.filterMap TableFrame.asAdd).any (AddFrame.holds depth)

def step (self : TableSystem) : TableEvent -> Option TableSystem
  | .call task => (Pool.step TableFrame.advance self.pool task).map fun pool => { self with pool := pool }
  | .lookup index =>
      match self.lookups[index]? with
      | none => none
      | some call =>
          (call.advance self.pool.shared self.locked).map fun call =>
            { self with lookups := self.lookups.set index call }

def start (table : Chain) (calls : List TableCall) (ids : List U160) : TableSystem where
  pool := TablePool.start table calls
  lookups := ids.map LookupCall.start

def run (self : TableSystem) (events : List TableEvent) : Option TableSystem := PartialRun.run step self events

end TableSystem

variable {own : U160} {kSize : UInt8} {table table' : Chain} {call next : LookupCall} {node : NodeInfo}
  {locked : Nat -> Bool} {depth : Nat}

/-! ## What one step of a lookup can do -/

/-- All moves of a lookup. -/
inductive LookupMove (table : Chain) (call : LookupCall) : LookupCall -> Prop where
  | descends (at_ : Nat) (callers : List LookupFrame) (top : call.frames = ⟨at_, .enter⟩ :: callers) (self : Bucket)
      (found : table[at_]? = some self) (has : HasNext table at_) (passes : self.idBelongsHere call.id = false) :
      LookupMove table call (call.stacked (⟨at_ + 1, .enter⟩ :: ⟨at_, .nearest⟩ :: callers))
  | turns (at_ : Nat) (callers : List LookupFrame) (top : call.frames = ⟨at_, .enter⟩ :: callers) (self : Bucket)
      (found : table[at_]? = some self) (stays : HasNext table at_ -> self.idBelongsHere call.id = true) :
      LookupMove table call (call.stacked (⟨at_, .fill []⟩ :: callers))
  | reads (at_ : Nat) (callers : List LookupFrame) (kNearest : List NodeInfo)
      (top : call.frames = ⟨at_, .fill kNearest⟩ :: callers) (self : Bucket) (found : table[at_]? = some self) :
      LookupMove table call (call.stacked (⟨at_, .recheck (self.filled kNearest)⟩ :: callers))
  | asksAgain (at_ : Nat) (callers : List LookupFrame) (kNearest : List NodeInfo)
      (top : call.frames = ⟨at_, .recheck kNearest⟩ :: callers) (self : Bucket) (found : table[at_]? = some self)
      (has : HasNext table at_) :
      LookupMove table call
        (call.stacked (⟨at_ + 1, .enter⟩ :: ⟨at_, .behind kNearest (self.kSize.toNat - kNearest.length)⟩ :: callers))
  | skips (at_ : Nat) (callers : List LookupFrame) (kNearest : List NodeInfo)
      (top : call.frames = ⟨at_, .recheck kNearest⟩ :: callers) :
      LookupMove table call (call.stacked (⟨at_, .leave kNearest⟩ :: callers))
  | returns (at_ : Nat) (callers : List LookupFrame) (nodes : List NodeInfo)
      (top : call.frames = ⟨at_, .leave nodes⟩ :: callers) : LookupMove table call (call.give nodes callers)

/-- The inversion lemma of a lookup. -/
theorem LookupCall.moves (advanced : call.advance table locked = some next) : LookupMove table call next := by
  unfold LookupCall.advance at advanced
  split at advanced
  · cases advanced
  · rename_i frame callers top
    rcases frame with ⟨at_, stage⟩
    split at advanced
    · rename_i nodes leaves
      cases leaves
      cases advanced
      exact .returns at_ callers nodes top
    · rcases Option.map_eq_some_iff.mp advanced with ⟨frames, moved, rfl⟩
      unfold LookupFrame.advance at moved
      split at moved
      · cases moved
      · rename_i self found
        cases stage with
        | nearest => cases moved
        | behind kNearest gap => cases moved
        | leave nodes => cases moved
        | enter =>
            dsimp only at moved
            split at moved
            · rename_i asks
              cases moved
              have has : at_ + 1 < table.length := of_decide_eq_true (Bool.and_eq_true_iff.mp asks).1
              exact .descends at_ callers top self found has (Bool.not_eq_true' _ ▸ (Bool.and_eq_true_iff.mp asks).2)
            · rename_i stays
              cases moved
              refine .turns at_ callers top self found fun has => ?_
              have longer : at_ + 1 < table.length := has
              by_contra passes
              apply stays
              rw [decide_eq_true longer, Bool.eq_false_iff.mpr passes]
              rfl
        | fill kNearest =>
            rcases Option.ite_none_left_eq_some.mp moved with ⟨_, moved⟩
            dsimp only at moved
            split at moved
            · rcases Option.ite_none_left_eq_some.mp moved with ⟨_, moved⟩
              cases moved
              exact .reads at_ callers kNearest top self found
            · rename_i full
              cases moved
              have nothing : self.filled kNearest = kNearest := by
                rw [Bucket.filled, Nat.eq_zero_of_not_pos full, List.take_zero, List.append_nil]
              have move := LookupMove.reads at_ callers kNearest top self found
              rw [nothing] at move
              exact move
        | recheck kNearest =>
            rcases Option.ite_none_left_eq_some.mp moved with ⟨_, moved⟩
            dsimp only at moved
            split at moved
            · rename_i asks
              cases moved
              have has : at_ + 1 < table.length := of_decide_eq_true (Bool.and_eq_true_iff.mp asks).2
              exact .asksAgain at_ callers kNearest top self found has
            · cases moved
              exact .skips at_ callers kNearest top

/-! ## What holds of every lookup -/

namespace LookupStage

/-- The contacts that a call has found so far. -/
def held : LookupStage -> List NodeInfo
  | .enter => []
  | .nearest => []
  | .fill kNearest => kNearest
  | .recheck kNearest => kNearest
  | .behind kNearest _ => kNearest
  | .leave kNearest => kNearest

/-- How many contacts it may return with those that it waits for. -/
def reach : LookupStage -> Nat
  | .behind kNearest gap => kNearest.length + gap
  | stage => stage.held.length

def waits : LookupStage -> Bool
  | .nearest => true
  | .behind _ _ => true
  | _ => false

end LookupStage

/-- Calls wait below the topmost one, and none has found too much. -/
structure LookupCall.Sound (kSize : UInt8) (table : Chain) (call : LookupCall) : Prop where
  inside : forall frame, frame ∈ call.frames -> frame.depth < table.length
  fits : forall frame, frame ∈ call.frames -> frame.stage.reach ≤ kSize.toNat
  waiting : forall frame callers, call.frames = frame :: callers -> frame.stage.waits = false ∧
    forall caller, caller ∈ callers -> caller.stage.waits = true
  result : forall nodes, call.result = some nodes -> nodes.length ≤ kSize.toNat
  ends : call.frames = [] -> Exists fun nodes => call.result = some nodes

namespace LookupCall

theorem sound_start (id : U160) (nonempty : 0 < table.length) : (start id).Sound kSize table where
  inside := by
    intro frame member
    rw [List.mem_singleton.mp member]
    exact nonempty
  fits := by
    intro frame member
    rw [List.mem_singleton.mp member]
    exact Nat.zero_le _
  waiting := by
    intro frame callers top
    cases top
    exact ⟨rfl, fun _ member => absurd member List.not_mem_nil⟩
  result := fun nodes none => by cases none
  ends := fun none => by cases none

theorem Sound.mono (sound : call.Sound kSize table) (longer : table.length ≤ table'.length) : call.Sound kSize table' :=
  { sound with inside := fun frame member => Nat.lt_of_lt_of_le (sound.inside frame member) longer }

variable {at_ : Nat} {stage : LookupStage} {callers : List LookupFrame}

theorem Sound.top_fits (sound : call.Sound kSize table) (top : call.frames = ⟨at_, stage⟩ :: callers) :
    stage.reach ≤ kSize.toNat := sound.fits ⟨at_, stage⟩ (top ▸ List.mem_cons_self)

theorem Sound.top_inside (sound : call.Sound kSize table) (top : call.frames = ⟨at_, stage⟩ :: callers) :
    at_ < table.length := sound.inside ⟨at_, stage⟩ (top ▸ List.mem_cons_self)

/-- The topmost call goes on in its bucket. -/
theorem Sound.goes (sound : call.Sound kSize table) (top : call.frames = ⟨at_, stage⟩ :: callers) (later : LookupStage)
    (moving : later.waits = false) (fits : later.reach ≤ kSize.toNat) :
    (call.stacked (⟨at_, later⟩ :: callers)).Sound kSize table := by
  have inCall : forall frame, frame ∈ callers -> frame ∈ call.frames :=
    fun frame member => top ▸ List.mem_cons_of_mem _ member
  refine ⟨fun frame member => ?_, fun frame member => ?_, fun frame others shape => ?_, sound.result,
    fun none => (by cases none)⟩
  · rcases List.mem_cons.mp member with rfl | old
    · exact sound.top_inside top
    · exact sound.inside frame (inCall frame old)
  · rcases List.mem_cons.mp member with rfl | old
    · exact fits
    · exact sound.fits frame (inCall frame old)
  · cases shape
    exact ⟨moving, (sound.waiting _ _ top).2⟩

/-- The topmost call asks the next bucket and waits. -/
theorem Sound.asks (sound : call.Sound kSize table) (top : call.frames = ⟨at_, stage⟩ :: callers) (later : LookupStage)
    (waits : later.waits = true) (fits : later.reach ≤ kSize.toNat) (has : HasNext table at_) :
    (call.stacked (⟨at_ + 1, .enter⟩ :: ⟨at_, later⟩ :: callers)).Sound kSize table := by
  have inCall : forall frame, frame ∈ callers -> frame ∈ call.frames :=
    fun frame member => top ▸ List.mem_cons_of_mem _ member
  refine ⟨fun frame member => ?_, fun frame member => ?_, fun frame others shape => ?_, sound.result,
    fun none => (by cases none)⟩
  · rcases List.mem_cons.mp member with rfl | member
    · exact has
    · rcases List.mem_cons.mp member with rfl | old
      · exact sound.top_inside top
      · exact sound.inside frame (inCall frame old)
  · rcases List.mem_cons.mp member with rfl | member
    · exact Nat.zero_le _
    · rcases List.mem_cons.mp member with rfl | old
      · exact fits
      · exact sound.fits frame (inCall frame old)
  · cases shape
    refine ⟨rfl, fun caller member => ?_⟩
    rcases List.mem_cons.mp member with rfl | old
    · exact waits
    · exact (sound.waiting _ _ top).2 caller old

/-- The caller goes on with no more than fits. -/
theorem resume_bounds {caller : LookupFrame} {nodes : List NodeInfo} (waits : caller.stage.waits = true)
    (fits : caller.stage.reach ≤ kSize.toNat) (answer : nodes.length ≤ kSize.toNat) :
    (caller.resume nodes).depth = caller.depth ∧ (caller.resume nodes).stage.waits = false ∧
      (caller.resume nodes).stage.reach ≤ kSize.toNat := by
  rcases caller with ⟨at_, stage⟩
  cases stage with
  | nearest => exact ⟨rfl, rfl, answer⟩
  | behind kNearest gap =>
      refine ⟨rfl, rfl, ?_⟩
      change kNearest.length + gap ≤ kSize.toNat at fits
      change (kNearest ++ nodes.take gap).length ≤ kSize.toNat
      rw [List.length_append, List.length_take]
      omega
  | _ => cases waits

/-- The step lemma. -/
theorem Sound.step (sound : call.Sound kSize table)
    (sizes : forall (depth : Nat) (bucket : Bucket), table[depth]? = some bucket -> bucket.kSize = kSize)
    (advanced : call.advance table locked = some next) : next.Sound kSize table := by
  cases LookupCall.moves advanced with
  | descends at_ callers top self found has passes => exact sound.asks top _ rfl (Nat.zero_le _) has
  | turns at_ callers top self found stays => exact sound.goes top _ rfl (Nat.zero_le _)
  | reads at_ callers kNearest top self found =>
      have before : kNearest.length ≤ kSize.toNat := sound.top_fits top
      have size := sizes at_ self found
      have after := Bucket.length_filled_le (size.symm ▸ before)
      rw [size] at after
      exact sound.goes top _ rfl after
  | asksAgain at_ callers kNearest top self found has =>
      have before : kNearest.length ≤ kSize.toNat := sound.top_fits top
      refine sound.asks top _ rfl ?_ has
      change kNearest.length + (self.kSize.toNat - kNearest.length) ≤ kSize.toNat
      rw [sizes at_ self found]
      omega
  | skips at_ callers kNearest top =>
      have before : kNearest.length ≤ kSize.toNat := sound.top_fits top
      exact sound.goes top _ rfl before
  | returns at_ callers nodes top =>
      have answer : nodes.length ≤ kSize.toNat := sound.top_fits top
      have waiting := (sound.waiting _ _ top).2
      cases callers with
      | nil =>
          refine ⟨fun _ member => absurd member List.not_mem_nil, fun _ member => absurd member List.not_mem_nil,
            fun _ _ none => (by cases none), fun others same => ?_, fun _ => ⟨nodes, rfl⟩⟩
          cases same
          exact answer
      | cons caller others =>
          have inCall : forall frame, frame ∈ caller :: others -> frame ∈ call.frames :=
            fun frame member => top ▸ List.mem_cons_of_mem _ member
          have bounds := resume_bounds (waiting caller List.mem_cons_self)
            (sound.fits _ (inCall _ List.mem_cons_self)) answer
          refine ⟨fun frame member => ?_, fun frame member => ?_, fun frame callers shape => ?_, sound.result,
            fun none => (by cases none)⟩
          · rcases List.mem_cons.mp member with rfl | old
            · rw [bounds.1]
              exact sound.inside _ (inCall _ List.mem_cons_self)
            · exact sound.inside _ (inCall _ (List.mem_cons_of_mem _ old))
          · rcases List.mem_cons.mp member with rfl | old
            · exact bounds.2.2
            · exact sound.fits _ (inCall _ (List.mem_cons_of_mem _ old))
          · cases shape
            exact ⟨bounds.2.1, fun other member => waiting other (List.mem_cons_of_mem _ member)⟩

/-- A lookup has returned, moves on, or waits for a redistribution. -/
theorem Sound.advances (sound : call.Sound kSize table)
    (sizes : forall (depth : Nat) (bucket : Bucket), table[depth]? = some bucket -> bucket.kSize = kSize) :
    call.frames = [] ∨ (call.advance table locked).isSome = true ∨ Exists fun depth => locked depth = true := by
  cases top : call.frames with
  | nil => exact Or.inl rfl
  | cons frame callers =>
      refine Or.inr ?_
      have member : frame ∈ call.frames := top ▸ List.mem_cons_self
      have moving := (sound.waiting _ _ top).1
      have fits := sound.fits _ member
      have inside := sound.inside _ member
      have found : table[frame.depth]? = some table[frame.depth] := List.getElem?_eq_getElem inside
      have size := sizes _ _ found
      rcases frame with ⟨at_, stage⟩
      unfold LookupCall.advance
      rw [top]
      unfold LookupFrame.advance
      cases stage with
      | nearest => cases moving
      | behind kNearest gap => cases moving
      | leave nodes => exact Or.inl rfl
      | enter =>
          refine Or.inl ?_
          dsimp only
          rw [Option.isSome_map, found]
          dsimp only
          split <;> rfl
      | fill kNearest =>
          have room : ¬table[at_].kSize.toNat < kNearest.length := by
            rw [size]
            exact Nat.not_lt.mpr fits
          cases held : locked at_ with
          | true => exact Or.inr ⟨at_, held⟩
          | false =>
              refine Or.inl ?_
              dsimp only
              rw [Option.isSome_map, found]
              dsimp only
              rw [if_neg room, held]
              split <;> rfl
      | recheck kNearest =>
          have room : ¬table[at_].kSize.toNat < kNearest.length := by
            rw [size]
            exact Nat.not_lt.mpr fits
          refine Or.inl ?_
          dsimp only
          rw [Option.isSome_map, found]
          dsimp only
          rw [if_neg room]
          split <;> rfl

/-! ## Where the contacts of a lookup come from -/

/-- The lookup has found the contact, or returned it. -/
def Holds (call : LookupCall) (node : NodeInfo) : Prop :=
  (Exists fun frame => frame ∈ call.frames ∧ node ∈ frame.stage.held) ∨
    Exists fun nodes => call.result = some nodes ∧ node ∈ nodes

theorem mem_held_resume {caller : LookupFrame} {nodes : List NodeInfo} (held : node ∈ (caller.resume nodes).stage.held) :
    node ∈ caller.stage.held ∨ node ∈ nodes := by
  rcases caller with ⟨at_, stage⟩
  cases stage with
  | nearest => exact Or.inr held
  | behind kNearest gap => exact (List.mem_append.mp held).imp_right List.mem_of_mem_take
  | _ => exact Or.inl held

theorem held_resume {caller : LookupFrame} (nodes : List NodeInfo) (held : node ∈ caller.stage.held) :
    node ∈ (caller.resume nodes).stage.held := by
  rcases caller with ⟨at_, stage⟩
  cases stage with
  | nearest => cases held
  | behind kNearest gap => exact List.mem_append_left _ held
  | _ => exact held

/-- Whatever a lookup has found was in the table when it was found. -/
theorem holds_advance (advanced : call.advance table locked = some next) (holds : next.Holds node) :
    call.Holds node ∨ node ∈ Bucket.stored table := by
  -- A frame that holds the contact was there before, or is the new one in place of the topmost.
  have replaced : forall {frame new : LookupFrame} {callers : List LookupFrame}, call.frames = frame :: callers ->
      (node ∈ new.stage.held -> node ∈ frame.stage.held ∨ node ∈ Bucket.stored table) ->
      (call.stacked (new :: callers)).Holds node -> call.Holds node ∨ node ∈ Bucket.stored table := by
    rintro frame new callers top source (⟨holder, member, held⟩ | ⟨nodes, result, inside⟩)
    · rcases List.mem_cons.mp member with rfl | old
      · exact (source held).imp_left fun here => Or.inl ⟨frame, top ▸ List.mem_cons_self, here⟩
      · exact Or.inl (Or.inl ⟨holder, top ▸ List.mem_cons_of_mem _ old, held⟩)
    · exact Or.inl (Or.inr ⟨nodes, result, inside⟩)
  have pushed : forall {at_ : Nat} {frame : LookupFrame} {callers : List LookupFrame},
      (call.stacked (⟨at_, .enter⟩ :: frame :: callers)).Holds node -> (call.stacked (frame :: callers)).Holds node := by
    rintro at_ frame callers (⟨holder, member, held⟩ | returned)
    · rcases List.mem_cons.mp member with rfl | old
      · cases held
      · exact Or.inl ⟨holder, old, held⟩
    · exact Or.inr returned
  cases LookupCall.moves advanced with
  | descends at_ callers top self found has passes => exact replaced top (fun held => by cases held) (pushed holds)
  | turns at_ callers top self found stays => exact replaced top (fun held => by cases held) holds
  | reads at_ callers kNearest top self found =>
      refine replaced top (fun held => ?_) holds
      refine (List.mem_append.mp held).imp_right fun taken => ?_
      exact List.mem_flatMap.mpr ⟨self, List.mem_of_getElem? found, List.mem_of_mem_take taken⟩
  | asksAgain at_ callers kNearest top self found has =>
      refine replaced top (fun held => ?_) (pushed holds)
      exact Or.inl held
  | skips at_ callers kNearest top =>
      refine replaced top (fun held => ?_) holds
      exact Or.inl held
  | returns at_ callers nodes top =>
      have answer : node ∈ nodes -> call.Holds node :=
        fun inside => Or.inl ⟨⟨at_, .leave nodes⟩, top ▸ List.mem_cons_self, inside⟩
      refine Or.inl ?_
      cases callers with
      | nil =>
          rcases holds with ⟨frame, member, _⟩ | ⟨others, same, inside⟩
          · exact absurd member List.not_mem_nil
          · cases same
            exact answer inside
      | cons caller others =>
          rcases holds with ⟨frame, member, held⟩ | returned
          · rcases List.mem_cons.mp member with rfl | old
            · rcases mem_held_resume held with before | inside
              · exact Or.inl ⟨caller, top ▸ List.mem_cons_of_mem _ List.mem_cons_self, before⟩
              · exact answer inside
            · exact Or.inl ⟨frame, top ▸ List.mem_cons_of_mem _ (List.mem_cons_of_mem _ old), held⟩
          · exact Or.inr returned

/-! ## A contact that stays where the lookup turns round -/

/-- The bucket holds the contact, and is the last one or the id belongs there. -/
def Steady (own id : U160) (depth : Nat) (node : NodeInfo) (table : Chain) : Prop :=
  Exists fun self => table[depth]? = some self ∧ node ∈ self.nodes ∧
    (HasNext table depth -> own.getBit depth ≠ id.getBit depth)

instance (own id : U160) (depth : Nat) (node : NodeInfo) (table : Chain) : Decidable (Steady own id depth node table) :=
  match found : table[depth]? with
  | none => isFalse fun ⟨_, there, _⟩ => Option.some_ne_none _ (there.symm.trans found)
  | some self =>
      decidable_of_iff
        (node ∈ self.nodes ∧ (depth + 1 < table.length -> own.getBit depth ≠ id.getBit depth))
        ⟨fun steady => ⟨self, found, steady⟩, fun ⟨_, there, steady⟩ => Option.some.inj (there.symm.trans found) ▸ steady⟩

/-- These calls ask the next bucket for the first time. -/
def Nearest (callers : List LookupFrame) : Prop := forall caller, caller ∈ callers -> caller.stage = .nearest

/-- A call has found the contact, and those that wait for it will take all its answer. -/
def Caught (node : NodeInfo) (frames : List LookupFrame) : Prop :=
  Exists fun above => Exists fun frame => Exists fun callers => frames = above ++ frame :: callers ∧
    node ∈ frame.stage.held ∧ Nearest callers

/-- The lookup is on its way down to the bucket, about to read it, or has found the
contact. -/
inductive Catching (depth : Nat) (node : NodeInfo) : List LookupFrame -> Prop where
  | descends {at_ : Nat} {callers : List LookupFrame} (before : at_ ≤ depth) (nearest : Nearest callers) :
      Catching depth node (⟨at_, .enter⟩ :: callers)
  | reads {callers : List LookupFrame} (nearest : Nearest callers) : Catching depth node (⟨depth, .fill []⟩ :: callers)
  | caught {frames : List LookupFrame} (caught : Caught node frames) : Catching depth node frames

structure Catches (depth : Nat) (node : NodeInfo) (call : LookupCall) : Prop where
  stack : call.frames ≠ [] -> Catching depth node call.frames
  result : forall nodes, call.result = some nodes -> node ∈ nodes

theorem caught_cons {frame : LookupFrame} : Caught node (frame :: callers) <->
    (node ∈ frame.stage.held ∧ Nearest callers) ∨ Caught node callers := by
  constructor
  · rintro ⟨above, holder, below, shape, held, nearest⟩
    cases above with
    | nil =>
        cases shape
        exact Or.inl ⟨held, nearest⟩
    | cons first above =>
        cases shape
        exact Or.inr ⟨above, holder, below, rfl, held, nearest⟩
  · rintro (⟨held, nearest⟩ | ⟨above, holder, below, rfl, held, nearest⟩)
    · exact ⟨[], frame, callers, rfl, held, nearest⟩
    · exact ⟨frame :: above, holder, below, rfl, held, nearest⟩

theorem not_caught_nil : ¬Caught node [] := by
  rintro ⟨above, holder, below, shape, _⟩
  exact List.append_ne_nil_of_right_ne_nil above (List.cons_ne_nil holder below) shape.symm

theorem catches_start (id : U160) (depth : Nat) (node : NodeInfo) : (start id).Catches depth node where
  stack := fun _ => .descends (Nat.zero_le depth) fun _ member => absurd member List.not_mem_nil
  result := fun _ none => by cases none

/-- The step lemma: the first calls go down to the bucket and no further, and the
answer from there is taken as a whole. -/
theorem Catches.step (catches : call.Catches depth node) (shares : SharesPrefix own call.id depth)
    (placed : forall (depth : Nat) (bucket : Bucket), table[depth]? = some bucket -> Placed own kSize depth bucket)
    (steady : Steady own call.id depth node table) (advanced : call.advance table locked = some next) :
    next.Catches depth node := by
  rcases steady with ⟨bucket, there, stored, turns⟩
  have inside : depth < table.length := (List.getElem?_eq_some_iff.mp there).1
  have catching : forall {frame callers}, call.frames = frame :: callers -> Catching depth node (frame :: callers) :=
    fun top => top ▸ catches.stack (top ▸ List.cons_ne_nil _ _)
  cases LookupCall.moves advanced with
  | descends at_ callers top self found has passes =>
      refine ⟨fun _ => ?_, catches.result⟩
      cases catching top with
      | descends before nearest =>
          have notThere : at_ ≠ depth := by
            rintro rfl
            rw [(placed at_ self found).idBelongsHere_iff.mpr (turns has)] at passes
            cases passes
          refine .descends (Nat.lt_of_le_of_ne before notThere) fun caller member => ?_
          rcases List.mem_cons.mp member with rfl | old
          · rfl
          · exact nearest caller old
      | caught caught =>
          have below := (caught_cons.mp caught).resolve_left fun held => List.not_mem_nil held.1
          exact .caught (caught_cons.mpr (Or.inr (caught_cons.mpr (Or.inr below))))
  | turns at_ callers top self found stays =>
      refine ⟨fun _ => ?_, catches.result⟩
      cases catching top with
      | descends before nearest =>
          rcases Nat.lt_or_eq_of_le before with further | rfl
          · have belongs := (placed at_ self found).idBelongsHere_iff.mp (stays (Nat.lt_of_le_of_lt further inside))
            exact absurd (shares at_ further) belongs
          · exact .reads nearest
      | caught caught =>
          have below := (caught_cons.mp caught).resolve_left fun held => List.not_mem_nil held.1
          exact .caught (caught_cons.mpr (Or.inr below))
  | reads at_ callers kNearest top self found =>
      refine ⟨fun _ => .caught (caught_cons.mpr ?_), catches.result⟩
      cases catching top with
      | reads nearest =>
          refine Or.inl ⟨?_, nearest⟩
          cases found.symm.trans there
          have fits : bucket.nodes.length ≤ bucket.kSize.toNat := by
            rw [(placed depth bucket there).kSize_eq]
            exact (placed depth bucket there).length_le
          change node ∈ bucket.filled []
          rw [Bucket.filled, List.nil_append, List.length_nil, Nat.sub_zero, List.take_of_length_le fits]
          exact stored
      | caught caught =>
          exact (caught_cons.mp caught).imp_left fun held => ⟨List.mem_append_left _ held.1, held.2⟩
  | asksAgain at_ callers kNearest top self found has =>
      refine ⟨fun _ => .caught (caught_cons.mpr (Or.inr (caught_cons.mpr ?_))), catches.result⟩
      cases catching top with
      | caught caught =>
          rcases caught_cons.mp caught with held | below
          · exact Or.inl held
          · exact Or.inr below
  | skips at_ callers kNearest top =>
      refine ⟨fun _ => .caught (caught_cons.mpr ?_), catches.result⟩
      cases catching top with
      | caught caught =>
          rcases caught_cons.mp caught with held | below
          · exact Or.inl held
          · exact Or.inr below
  | returns at_ callers nodes top =>
      have caught : Caught node (⟨at_, .leave nodes⟩ :: callers) := by
        cases catching top with
        | caught caught => exact caught
      cases callers with
      | nil =>
          have held := (caught_cons.mp caught).resolve_right not_caught_nil
          refine ⟨fun unfinished => absurd rfl unfinished, fun others same => ?_⟩
          cases same
          exact held.1
      | cons caller others =>
          refine ⟨fun _ => .caught (caught_cons.mpr ?_), catches.result⟩
          rcases caught_cons.mp caught with ⟨held, nearest⟩ | below
          · have waits : caller.stage = .nearest := nearest caller List.mem_cons_self
            refine Or.inl ⟨?_, fun other member => nearest other (List.mem_cons_of_mem _ member)⟩
            rw [LookupFrame.resume, waits]
            exact held
          · exact (caught_cons.mp below).imp_left fun found => ⟨held_resume nodes found.1, found.2⟩

end LookupCall

/-! ## Every step loses weight -/

/-- The steps of a lookup that has the given number of buckets below it. -/
def visitSteps : Nat -> Nat
  | 0 => 4
  | levels + 1 => 2 * visitSteps levels + 4

/-- The steps of the next bucket's lookup. -/
def behindSteps (depth : Nat) : Nat :=
  match 159 - depth with
  | 0 => 0
  | levels + 1 => visitSteps levels

def LookupFrame.weight (frame : LookupFrame) : Nat :=
  match frame.stage with
  | .enter => visitSteps (159 - frame.depth)
  | .nearest => behindSteps frame.depth + 3
  | .fill _ => behindSteps frame.depth + 3
  | .recheck _ => behindSteps frame.depth + 2
  | .behind _ _ => 1
  | .leave _ => 1

def LookupCall.weight (call : LookupCall) : Nat := (call.frames.map LookupFrame.weight).sum

theorem visitSteps_eq (depth : Nat) : visitSteps (159 - depth) = 2 * behindSteps depth + 4 := by
  unfold behindSteps
  cases 159 - depth <;> rfl

theorem visitSteps_next {depth : Nat} (shallow : depth + 1 ≤ 159) : visitSteps (159 - (depth + 1)) = behindSteps depth := by
  have levels : 159 - depth = 159 - (depth + 1) + 1 := by omega
  rw [behindSteps, levels]

theorem LookupCall.weight_start (id : U160) : (start id).weight < 2 ^ 162 := by
  have count : forall levels, visitSteps levels + 4 = 2 ^ (levels + 3) := by
    intro levels
    induction levels with
    | zero => rfl
    | succ levels ih =>
        have power : 2 ^ (levels + 1 + 3) = 2 * 2 ^ (levels + 3) := by
          rw [<- Nat.pow_succ']
        rw [visitSteps, power]
        omega
  have whole := count 159
  simp only [LookupCall.weight, LookupCall.start, List.map_cons, List.map_nil, List.sum_cons, List.sum_nil,
    LookupFrame.weight, Nat.sub_zero, Nat.add_zero]
  omega

theorem LookupCall.lighter (advanced : call.advance table locked = some next)
    (placed : forall (depth : Nat) (bucket : Bucket), table[depth]? = some bucket -> Placed own kSize depth bucket) :
    next.weight < call.weight := by
  have shallow : forall {at_ : Nat}, HasNext table at_ -> at_ + 1 ≤ 159 :=
    fun has => (placed _ _ (List.getElem?_eq_getElem has)).depth_le
  cases LookupCall.moves advanced with
  | descends at_ callers top self found has passes =>
      have here := visitSteps_eq at_
      have deeper := visitSteps_next (shallow has)
      simp only [LookupCall.weight, LookupCall.stacked, top, List.map_cons, List.sum_cons, LookupFrame.weight]
      omega
  | turns at_ callers top self found stays =>
      have here := visitSteps_eq at_
      simp only [LookupCall.weight, LookupCall.stacked, top, List.map_cons, List.sum_cons, LookupFrame.weight]
      omega
  | reads at_ callers kNearest top self found =>
      simp only [LookupCall.weight, LookupCall.stacked, top, List.map_cons, List.sum_cons, LookupFrame.weight]
      omega
  | asksAgain at_ callers kNearest top self found has =>
      have deeper := visitSteps_next (shallow has)
      simp only [LookupCall.weight, LookupCall.stacked, top, List.map_cons, List.sum_cons, LookupFrame.weight]
      omega
  | skips at_ callers kNearest top =>
      simp only [LookupCall.weight, LookupCall.stacked, top, List.map_cons, List.sum_cons, LookupFrame.weight]
      omega
  | returns at_ callers nodes top =>
      cases callers with
      | nil =>
          simp only [LookupCall.weight, LookupCall.give, top, List.map_cons, List.sum_cons, LookupFrame.weight]
          exact Nat.one_pos
      | cons caller others =>
          have same : (caller.resume nodes).weight ≤ caller.weight := by
            rcases caller with ⟨depth, stage⟩
            cases stage <;> exact Nat.le_refl _
          simp only [LookupCall.weight, LookupCall.give, top, List.map_cons, List.sum_cons]
          have one : (⟨at_, .leave nodes⟩ : LookupFrame).weight = 1 := rfl
          omega

/-! ## The system -/

namespace TableSystem

variable {system after : TableSystem} {event : TableEvent} {index : Nat}

/-- Everything that a step of the system can be. -/
theorem step_cases (stepped : step system event = some after) :
    (Exists fun task => event = .call task ∧ Exists fun pool => Pool.step TableFrame.advance system.pool task = some pool ∧
      after = { system with pool := pool }) ∨
    Exists fun index => event = .lookup index ∧ Exists fun call => Exists fun next =>
      system.lookups[index]? = some call ∧ call.advance system.pool.shared system.locked = some next ∧
      after = { system with lookups := system.lookups.set index next } := by
  cases event with
  | call task =>
      rcases Option.map_eq_some_iff.mp stepped with ⟨pool, moved, rfl⟩
      exact Or.inl ⟨task, rfl, pool, moved, rfl⟩
  | lookup index =>
      unfold step at stepped
      dsimp only at stepped
      split at stepped
      · cases stepped
      · rename_i call found
        rcases Option.map_eq_some_iff.mp stepped with ⟨next, moved, rfl⟩
        exact Or.inr ⟨index, rfl, call, next, found, moved, rfl⟩

structure Sound (own : U160) (kSize : UInt8) (system : TableSystem) : Prop where
  pool : system.pool.Sound own kSize
  lookups : forall call, call ∈ system.lookups -> call.Sound kSize system.pool.shared

theorem Sound.placed (sound : system.Sound own kSize) {depth : Nat} {bucket : Bucket}
    (found : system.pool.shared[depth]? = some bucket) : Placed own kSize depth bucket :=
  sound.pool.calls.placed depth bucket found

theorem sound_start (live : Live own kSize 0 table) (calls : List TableCall) (ids : List U160) :
    (start table calls ids).Sound own kSize := by
  refine ⟨TablePool.start_sound live calls, fun call member => ?_⟩
  rcases List.mem_map.mp member with ⟨id, _, rfl⟩
  exact LookupCall.sound_start id (List.length_pos_iff.mpr live.nonempty)

theorem pool_longer {pool next : TablePool} {task : Nat} (sound : pool.Sound own kSize)
    (stepped : Pool.step TableFrame.advance pool task = some next) : pool.shared.length ≤ next.shared.length := by
  rcases Pool.step_eq_some stepped with ⟨frame, _, others, replacement, _, before, advanced, _⟩
  have member := before.mem_iff.mpr List.mem_cons_self
  exact (sound.calls.moved member (sound.calls.moves member advanced)).2.1

theorem Sound.step (sound : system.Sound own kSize) (stepped : TableSystem.step system event = some after) :
    after.Sound own kSize := by
  rcases step_cases stepped with ⟨task, _, pool, moved, rfl⟩ | ⟨index, _, call, next, found, moved, rfl⟩
  · exact ⟨sound.pool.step moved, fun call member => (sound.lookups call member).mono (pool_longer sound.pool moved)⟩
  · refine ⟨sound.pool, fun other member => ?_⟩
    rcases List.mem_or_eq_of_mem_set member with old | rfl
    · exact sound.lookups other old
    · exact (sound.lookups call (List.mem_of_getElem? found)).step (fun _ _ there => (sound.placed there).kSize_eq) moved

/-- What is left to do for all calls. -/
def weigh (kSize : UInt8) (system : TableSystem) : Nat :=
  system.pool.weigh Bucket.loads (TableFrame.weight kSize) + (system.lookups.map LookupCall.weight).sum

theorem Sound.weigh_lt (sound : system.Sound own kSize) (stepped : TableSystem.step system event = some after) :
    after.weigh kSize < system.weigh kSize := by
  rcases step_cases stepped with ⟨task, _, pool, moved, rfl⟩ | ⟨index, _, call, next, found, moved, rfl⟩
  · exact Nat.add_lt_add_right (sound.pool.weigh_lt moved) _
  · have less := LookupCall.lighter moved fun _ _ there => sound.placed there
    have sums := VecOps.sum_map_set LookupCall.weight found next
    unfold weigh
    dsimp only
    omega

theorem weigh_start_le (table : Chain) (kSize : UInt8) (calls : List TableCall) (ids : List U160) :
    (start table calls ids).weigh kSize ≤
      TablePool.CALL_STEPS * ((Bucket.stored table).length + calls.length) + 2 ^ 162 * ids.length := by
  have lookups : ((ids.map LookupCall.start).map LookupCall.weight).sum ≤ 2 ^ 162 * ids.length := by
    induction ids with
    | nil => exact Nat.zero_le _
    | cons id rest ih =>
        have one := LookupCall.weight_start id
        rw [List.map_cons, List.map_cons, List.sum_cons, List.length_cons, Nat.mul_succ]
        omega
  exact Nat.add_le_add (TablePool.weigh_start_le table kSize calls) lookups

/-- Without calls nobody holds a lock. -/
theorem unlocked_of_finished (finished : system.pool.Finished) (depth : Nat) : system.locked depth = false := by
  rw [locked, finished]
  rfl

/-- A lookup that has not returned can go on, or waits for a redistribution. -/
theorem Sound.lookup_goes_on (sound : system.Sound own kSize) {call : LookupCall}
    (found : system.lookups[index]? = some call) :
    call.frames = [] ∨ (TableSystem.step system (.lookup index)).isSome = true ∨
      Exists fun depth => system.locked depth = true := by
  have advances : call.frames = [] ∨ (call.advance system.pool.shared system.locked).isSome = true ∨
      Exists fun depth => system.locked depth = true :=
    (sound.lookups call (List.mem_of_getElem? found)).advances fun _ _ there => (sound.placed there).kSize_eq
  refine advances.imp_right (Or.imp_left fun moves => ?_)
  rw [TableSystem.step, found]
  dsimp only
  rwa [Option.isSome_map]

/-- Unless a call panics, all calls have returned or some call can go on. -/
theorem Sound.progress (sound : system.Sound own kSize) (calm : ¬system.pool.Panics) :
    (system.pool.Finished ∧ forall call, call ∈ system.lookups -> call.frames = []) ∨
      Exists fun event => (TableSystem.step system event).isSome = true := by
  rcases sound.pool.progress calm with finished | ⟨task, pool, moved⟩
  · by_cases returned : forall call, call ∈ system.lookups -> call.frames = []
    · exact Or.inl ⟨finished, returned⟩
    · simp only [not_forall] at returned
      rcases returned with ⟨call, member, unfinished⟩
      rcases List.getElem?_of_mem member with ⟨index, found⟩
      rcases sound.lookup_goes_on found with done | moves | ⟨depth, held⟩
      · exact absurd done unfinished
      · exact Or.inr ⟨.lookup index, moves⟩
      · rw [unlocked_of_finished finished] at held
        cases held
  · refine Or.inr ⟨.call task, ?_⟩
    rw [TableSystem.step, moved]
    rfl

/-- The lookup with the given index has found the contact. -/
def Holds (index : Nat) (system : TableSystem) (node : NodeInfo) : Prop :=
  Exists fun call => system.lookups[index]? = some call ∧ call.Holds node

theorem holds_step {node : NodeInfo} (stepped : step system event = some after) (holds : after.Holds index node) :
    system.Holds index node ∨ node ∈ Bucket.stored system.pool.shared := by
  rcases holds with ⟨call, found, holds⟩
  rcases step_cases stepped with ⟨task, _, pool, moved, rfl⟩ | ⟨moving, _, before, next, there, moved, rfl⟩
  · exact Or.inl ⟨call, found, holds⟩
  · by_cases same : moving = index
    · subst same
      have inside := (List.getElem?_eq_some_iff.mp there).1
      change (system.lookups.set moving next)[moving]? = some call at found
      rw [List.getElem?_set_self inside, Option.some.injEq] at found
      subst found
      exact (LookupCall.holds_advance moved holds).imp_left fun earlier => ⟨before, there, earlier⟩
    · change (system.lookups.set moving next)[index]? = some call at found
      rw [List.getElem?_set_ne same] at found
      exact Or.inl ⟨call, found, holds⟩

theorem not_holds_start (table : Chain) (calls : List TableCall) (ids : List U160) (index : Nat) (node : NodeInfo) :
    ¬(start table calls ids).Holds index node := by
  rintro ⟨call, found, holds⟩
  rcases List.mem_map.mp (List.mem_of_getElem? found) with ⟨id, _, rfl⟩
  rcases holds with ⟨frame, member, held⟩ | ⟨nodes, none, _⟩
  · rw [List.mem_singleton.mp member] at held
    cases held
  · cases none

/-- Whatever a lookup has found at the end was stored at some time. -/
theorem holds_run {calls : List TableCall} {ids : List U160} {events : List TableEvent} {final : TableSystem}
    {node : NodeInfo} (ran : run (start table calls ids) events = some final) (holds : final.Holds index node) :
    Exists fun before => Exists fun after => Exists fun middle => events = before ++ after ∧
      run (start table calls ids) before = some middle ∧ node ∈ Bucket.stored middle.pool.shared := by
  have origin : forall (state : TableSystem) (event : TableEvent) (next : TableSystem) (node : NodeInfo),
      step state event = some next -> next.Holds index node ->
      state.Holds index node ∨ (fun (state : TableSystem) (_ : TableEvent) (node : NodeInfo) =>
        node ∈ Bucket.stored state.pool.shared) state event node :=
    fun state event next node stepped holds => holds_step stepped holds
  rcases PartialRun.run_origin origin ran holds with first | ⟨before, event, rest, middle, split, reached, stored⟩
  · exact absurd first (not_holds_start table calls ids index node)
  · exact ⟨before, event :: rest, middle, split, reached, stored⟩

/-- The lookup with the given index is after the contact. -/
def Traced (id : U160) (depth : Nat) (node : NodeInfo) (index : Nat) (system : TableSystem) : Prop :=
  Exists fun call => system.lookups[index]? = some call ∧ call.id = id ∧ call.Catches depth node

theorem id_advance (advanced : call.advance table locked = some next) : next.id = call.id := by
  cases LookupCall.moves advanced with
  | returns at_ callers nodes top => cases callers <;> rfl
  | _ => rfl

theorem Traced.step {id : U160} {node : NodeInfo} (traced : system.Traced id depth node index)
    (sound : system.Sound own kSize) (shares : SharesPrefix own id depth)
    (steady : LookupCall.Steady own id depth node system.pool.shared)
    (stepped : TableSystem.step system event = some after) : after.Traced id depth node index := by
  rcases traced with ⟨call, found, rfl, catches⟩
  rcases step_cases stepped with ⟨task, _, pool, moved, rfl⟩ | ⟨moving, _, before, next, there, moved, rfl⟩
  · exact ⟨call, found, rfl, catches⟩
  · by_cases same : moving = index
    · subst same
      cases there.symm.trans found
      have inside := (List.getElem?_eq_some_iff.mp there).1
      exact ⟨next, List.getElem?_set_self inside, id_advance moved,
        catches.step shares (fun _ _ at_ => sound.placed at_) steady moved⟩
    · exact ⟨call, (List.getElem?_set_ne same).trans found, rfl, catches⟩

end TableSystem

/-- However lookups, adds and removes are interleaved: the schedule is bounded, it can go
on until all have returned unless an add panics, and a lookup that has returned has at
most as many contacts as fit, each of which was stored when some part of the schedule
had been performed. -/
theorem concurrent_lookups (own : U160) (kSize : UInt8) (history : List TableCall) (table : Chain)
    (answers : List (Option Bool)) (built : Bucket.performAll own kSize history = some (table, answers))
    (calls : List TableCall) (ids : List U160) (events : List TableEvent) (final : TableSystem)
    (ran : TableSystem.run (TableSystem.start table calls ids) events = some final) :
    events.length ≤ TablePool.CALL_STEPS * ((Bucket.stored table).length + calls.length) + 2 ^ 162 * ids.length ∧
    (final.pool.Panics ∨ (final.pool.Finished ∧ forall call, call ∈ final.lookups -> call.frames = []) ∨
      Exists fun event => (TableSystem.step final event).isSome = true) ∧
    forall (index : Nat) (call : LookupCall) (nodes : List NodeInfo), final.lookups[index]? = some call ->
      call.result = some nodes -> nodes.length ≤ kSize.toNat ∧
      forall node, node ∈ nodes -> Exists fun before => Exists fun after => Exists fun middle =>
        events = before ++ after ∧ TableSystem.run (TableSystem.start table calls ids) before = some middle ∧
        node ∈ Bucket.stored middle.pool.shared := by
  have live := live_of_performAll built
  have started := TableSystem.sound_start live calls ids
  have sound : final.Sound own kSize :=
    PartialRun.run_invariant (fun _ _ _ sound stepped => TableSystem.Sound.step sound stepped) started ran
  have bound := PartialRun.run_length_le (fun _ _ _ sound stepped => TableSystem.Sound.step sound stepped)
    (fun _ _ _ sound stepped => TableSystem.Sound.weigh_lt sound stepped) started ran
  refine ⟨(Nat.le_add_right _ _).trans (bound.trans (TableSystem.weigh_start_le table kSize calls ids)), ?_, ?_⟩
  · by_cases panics : final.pool.Panics
    · exact Or.inl panics
    · exact Or.inr (sound.progress panics)
  · intro index call nodes found result
    refine ⟨(sound.lookups call (List.mem_of_getElem? found)).result nodes result, fun node member => ?_⟩
    exact TableSystem.holds_run ran ⟨call, found, Or.inr ⟨nodes, result, member⟩⟩

/-- A lookup among adds and removes returns every contact that stays, from its start to
its end, in the bucket that its id belongs to, or in the last one in front of that. -/
theorem concurrent_lookup_finds (own : U160) (kSize : UInt8) (history : List TableCall) (table : Chain)
    (answers : List (Option Bool)) (built : Bucket.performAll own kSize history = some (table, answers))
    (calls : List TableCall) (ids : List U160) (events : List TableEvent) (final : TableSystem)
    (ran : TableSystem.run (TableSystem.start table calls ids) events = some final) (index : Nat) (id : U160)
    (asked : ids[index]? = some id) (node : NodeInfo) (depth : Nat) (shares : SharesPrefix own id depth)
    (steady : PartialRun.Always TableSystem.step
      (fun system => LookupCall.Steady own id depth node system.pool.shared) (TableSystem.start table calls ids) events)
    (call : LookupCall) (nodes : List NodeInfo) (found : final.lookups[index]? = some call)
    (result : call.result = some nodes) : node ∈ nodes := by
  have live := live_of_performAll built
  have traced : (TableSystem.start table calls ids).Traced id depth node index := by
    refine ⟨LookupCall.start id, ?_, rfl, LookupCall.catches_start id depth node⟩
    change (ids.map LookupCall.start)[index]? = _
    rw [List.getElem?_map, asked]
    rfl
  have kept := PartialRun.run_invariant_of_permitted
    (fun system event next (before : system.Traced id depth node index ∧ system.Sound own kSize) steady stepped =>
      ⟨before.1.step before.2 shares steady stepped, before.2.step stepped⟩)
    ⟨traced, TableSystem.sound_start live calls ids⟩ steady.permitted ran
  rcases kept.1 with ⟨same, there, _, catches⟩
  cases found.symm.trans there
  exact catches.result nodes result

/-! ## A contact is added in between -/

namespace AddedBetween

open StaleSchedule (far near)

def oneBucket : Chain := [{ ownId := .min, bucketIndex := 0, kSize := 8, nodes := [far] }]

/-- The lookup has read the bucket when the call stores its contact there. -/
def events : List TableEvent := [.lookup 0, .call 0, .call 0, .lookup 0, .call 0, .lookup 0, .lookup 0]

def final : TableSystem where
  pool := { shared := [{ ownId := .min, bucketIndex := 0, kSize := 8, nodes := [far, near] }], tasks := [[]] }
  lookups := [⟨.min, [], some [far]⟩]

theorem built : Bucket.performAll .min 8 [.add far] = some (oneBucket, [none]) := by decide +kernel

theorem ran : TableSystem.run (TableSystem.start oneBucket [.add near] [.min]) events = some final := by decide +kernel

end AddedBetween

open AddedBetween in
theorem concurrent_lookups_added_between : Exists fun before => Exists fun after => Exists fun middle =>
    events = before ++ after ∧
      TableSystem.run (TableSystem.start oneBucket [.add StaleSchedule.near] [.min]) before = some middle ∧
      StaleSchedule.far ∈ Bucket.stored middle.pool.shared :=
  ((concurrent_lookups .min 8 [.add StaleSchedule.far] oneBucket [none] built [.add StaleSchedule.near] [.min] events
    final ran).2.2 0 ⟨.min, [], some [StaleSchedule.far]⟩ [StaleSchedule.far] rfl rfl).2 StaleSchedule.far
    List.mem_cons_self

open AddedBetween in
open StaleSchedule (far near) in
/-- The lookup returns the contact that stays, without the one that was added. -/
theorem concurrent_lookup_finds_added_between : Exists fun call => Exists fun nodes =>
    TableSystem.run (TableSystem.start oneBucket [.add near] [.min]) events = some final ∧
      final.lookups[0]? = some call ∧ call.result = some nodes ∧ far ∈ nodes ∧
      near ∉ nodes ∧ near ∈ Bucket.stored final.pool.shared := by
  have steady : PartialRun.Always TableSystem.step
      (fun system => LookupCall.Steady .min .min 0 far system.pool.shared)
      (TableSystem.start oneBucket [.add near] [.min]) events := by
    decide +kernel
  have found := concurrent_lookup_finds .min 8 [.add far] oneBucket [none] built [.add near] [.min] events final ran 0
    .min rfl far 0 (sharesPrefix_zero _ _) steady ⟨.min, [], some [far]⟩ [far] rfl rfl
  exact ⟨_, _, ran, rfl, rfl, found, by decide, by decide⟩

end DhtExplorer
