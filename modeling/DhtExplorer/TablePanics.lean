import DhtExplorer.TableConcurrency

namespace DhtExplorer

open TaskPool (Pool)

/-!
# The panic of `add`

An `add` that has read the length of a last bucket as full relies on the second
reading, or on a next bucket that another call has set.  A contact that belongs here
needs neither.  This assurance is kept by all moves but one: a `remove` that takes a
contact out of that bucket in between.  From there on the `add` can always be led
into the missing bucket, since nobody can lock a last bucket and wait.
-/

/-- The next step takes a contact out of a last bucket, while an `add` whose contact
belongs further down has read one length of that bucket and is about to read the
other. -/
def TableFrame.ShrinksBetween (table : Chain) (frames : List TableFrame) : TableFrame -> Prop
  | add _ => False
  | remove frame =>
      frame.stage = .erase ∧ ¬HasNext table frame.depth ∧
      Exists fun self : Bucket => table[frame.depth]? = some self ∧ frame.id ∈ self.nodes.map NodeInfo.id ∧
      Exists fun adding : AddFrame => .add adding ∈ frames ∧ adding.depth = frame.depth ∧
        (adding.stage = .recheckNext ∨ adding.stage = .recheckLen) ∧ self.belongsHere adding.node = false

/-- The named task is about to take the contact out. -/
def TablePool.ShrinksBetween (pool : TablePool) (task : Nat) : Prop :=
  Exists fun frame => Exists fun callers =>
    pool.tasks[task]? = some (frame :: callers) ∧ frame.ShrinksBetween pool.shared pool.frames

variable {own : U160} {kSize : UInt8} {table table' : Chain} {frames others : List TableFrame} {frame : AddFrame}
  {self : Bucket} {depth : Nat}

/-! ## The assurance of a call -/

/-- A call stays assured where its bucket stays full, or is split. -/
theorem AddFrame.Assured.kept (assured : frame.Assured own kSize table) (longer : table.length ≤ table'.length)
    (full : frame.stage = .recheckNext ∨ frame.stage = .recheckLen -> ¬HasNext table frame.depth ->
      Full kSize table frame.depth -> Full kSize table' frame.depth ∨ Leaves own frame.node.id frame.depth) :
    frame.Assured own kSize table' := by
  have next : HasNext table frame.depth -> HasNext table' frame.depth := fun has => Nat.lt_of_lt_of_le has longer
  have rechecking : frame.stage = .recheckNext ∨ frame.stage = .recheckLen ->
      HasNext table frame.depth ∨ Full kSize table frame.depth ∨ Leaves own frame.node.id frame.depth ->
      HasNext table' frame.depth ∨ Full kSize table' frame.depth ∨ Leaves own frame.node.id frame.depth := by
    rintro stage (has | all | leaves)
    · exact Or.inl (next has)
    · by_cases has : HasNext table frame.depth
      · exact Or.inl (next has)
      · exact Or.inr (full stage has all)
    · exact Or.inr (Or.inr leaves)
  rcases frame with ⟨at_, node, stage⟩
  cases stage with
  | recheckNext => exact rechecking (Or.inl rfl) assured
  | recheckLen => exact rechecking (Or.inr rfl) assured
  | route => exact assured.imp_left next
  | _ => trivial

theorem Full.addOrUpdate (full : Full kSize table depth) (found : table[depth]? = some self)
    (placed : Placed own kSize depth self) (node : NodeInfo) :
    Full kSize (table.set depth (self.addOrUpdate node)) depth := by
  intro bucket stored
  rw [List.getElem?_set_self (List.getElem?_eq_some_iff.mp found).1, Option.some.injEq] at stored
  subst stored
  have length := full self found
  rcases Bucket.addOrUpdate_cases self node with ⟨_, perm⟩ | ⟨_, room, _⟩ | ⟨_, _, same⟩
  · rw [perm.length_eq, length]
  · rw [placed.kSize_eq, length] at room
    exact absurd room (Nat.lt_irrefl _)
  · rw [same, length]

theorem Full.of_same {table' : Chain} (full : Full kSize table depth) (same : table'[depth]? = table[depth]?) :
    Full kSize table' depth :=
  fun bucket found => full bucket (same ▸ found)

def AllAssured (own : U160) (kSize : UInt8) (table : Chain) (frames : List TableFrame) : Prop :=
  forall frame : AddFrame, .add frame ∈ frames -> frame.Assured own kSize table

theorem AllAssured.of_perm {frames' : List TableFrame} (perm : frames.Perm frames')
    (assured : AllAssured own kSize table frames) : AllAssured own kSize table frames' :=
  fun frame member => assured frame (perm.mem_iff.mpr member)

/-- Of all moves, only the removal of a contact in between takes the assurance away. -/
theorem AllAssured.step {moving : TableFrame} (assured : AllAssured own kSize table (moving :: others))
    (sound : CallsSound own kSize table (moving :: others)) {replacement : List TableFrame}
    (move : TableMove own kSize table moving table' replacement)
    (between : ¬moving.ShrinksBetween table (moving :: others)) :
    AllAssured own kSize table' (replacement ++ others) := by
  have there : forall other : AddFrame, .add other ∈ others -> other.Assured own kSize table :=
    fun other member => assured other (List.mem_cons_of_mem _ member)
  have longer := (sound.moved List.mem_cons_self move).2.1
  have elsewhere : forall {changed : Nat} {bucket : Bucket} {other : AddFrame}, changed ≠ other.depth ->
      Full kSize table other.depth -> Full kSize (table.set changed bucket) other.depth :=
    fun different full => full.of_same (List.getElem?_set_ne different)
  cases move with
  | @add frame _ _ move =>
      have here := assured frame List.mem_cons_self
      intro other member
      cases move with
      | goes stage later opened keeps =>
          rcases List.mem_append.mp member with new | old
          · rw [List.map_singleton, List.mem_singleton, TableFrame.add.injEq] at new
            exact new ▸ keeps here
          · exact there other old
      | descends stage has stays =>
          rcases List.mem_append.mp member with new | old
          · rw [List.map_singleton, List.mem_singleton, TableFrame.add.injEq] at new
            subst new
            trivial
          · exact there other old
      | returns stage => exact there other member
      | stores stage self found =>
          refine (there other member).kept longer fun _ _ full => Or.inl ?_
          by_cases same : frame.depth = other.depth
          · rw [<- same] at full ⊢
            exact full.addOrUpdate found (sound.placed _ self found) frame.node
          · exact elsewhere same full
      | opens stage self found last shallow =>
          rcases List.mem_append.mp member with new | old
          · rw [List.map_singleton, List.mem_singleton, TableFrame.add.injEq] at new
            subst new
            trivial
          · have entered : other.Entered own table := sound.entered _ (List.mem_cons_of_mem _ old)
            exact (there other old).kept longer fun _ _ full =>
              Or.inl (full.of_same (List.getElem?_append_left entered.inside))
      | hands index stage self found has moved slot stays =>
          rcases List.mem_append.mp member with new | old
          · rcases List.mem_cons.mp new with handed | again
            · rw [TableFrame.add.injEq] at handed
              subst handed
              trivial
            · rw [List.map_singleton, List.mem_singleton, TableFrame.add.injEq] at again
              subst again
              exact here.kept longer fun rechecking => by simp [stage] at rechecking
          · refine (there other old).kept longer fun _ last full => Or.inl (elsewhere ?_ full)
            rintro same
            exact last (same ▸ has)
  | @remove frame _ _ move =>
      intro other member
      cases move with
      | locates stage =>
          rcases List.mem_append.mp member with new | old
          · rw [List.map_singleton, List.mem_singleton] at new
            cases new
          · exact there other old
      | descends stage has =>
          rcases List.mem_append.mp member with new | old
          · rw [List.map_singleton, List.mem_singleton] at new
            cases new
          · exact there other old
      | misses stage => exact there other member
      | erases stage self found index inside stored =>
          refine (there other member).kept longer fun rechecking last full => ?_
          by_cases same : frame.depth = other.depth
          · refine Or.inr ((same ▸ sound.placed _ self found).belongsHere_iff.mp ?_)
            by_contra leaves
            refine between ⟨stage, same ▸ last, self, found, stored, other, List.mem_cons_of_mem _ member, same.symm,
              rechecking, Bool.eq_false_iff.mpr leaves⟩
          · exact Or.inl (elsewhere same full)

namespace TablePool

variable {pool next : TablePool} {task : Nat}

theorem allAssured_step (sound : pool.Sound own kSize) (assured : AllAssured own kSize pool.shared pool.frames)
    (between : ¬pool.ShrinksBetween task) (stepped : Pool.step TableFrame.advance pool task = some next) :
    AllAssured own kSize next.shared next.frames := by
  rcases Pool.step_eq_some stepped with ⟨frame, callers, others, replacement, found, before, advanced, after⟩
  have move := sound.calls.moves (before.mem_iff.mpr List.mem_cons_self) advanced
  refine ((assured.of_perm before).step (sound.calls.of_perm before) move ?_).of_perm after.symm
  intro shrinks
  refine between ⟨frame, callers, found, ?_⟩
  cases frame with
  | add frame => exact shrinks
  | remove frame =>
      rcases shrinks with ⟨stage, last, self, there, stored, adding, member, rest⟩
      exact ⟨stage, last, self, there, stored, adding, before.mem_iff.mpr member, rest⟩

theorem Sound.calm (sound : pool.Sound own kSize) (assured : AllAssured own kSize pool.shared pool.frames) :
    ¬pool.Panics := by
  rintro ⟨frame, self, member, stage, found, leaves, last⟩
  have holds := assured frame member
  rw [AddFrame.Assured, stage] at holds
  have belongs := (sound.calls.placed _ self found).belongsHere_iff.mpr (holds.resolve_left last)
  rw [leaves] at belongs
  cases belongs

/-- A call in the last bucket is on top of its task, and nobody locks that bucket. -/
theorem Sound.moves_in_last (sound : pool.Sound own kSize) {moving : TableFrame} (member : moving ∈ pool.frames)
    (last : ¬HasNext pool.shared moving.depth) :
    (pool.frames.filterMap TableFrame.asAdd).any (AddFrame.holds moving.depth) = false ∧
      Exists fun task : Nat => Exists fun callers => pool.tasks[task]? = some (moving :: callers) := by
  have inside : forall frame, frame ∈ pool.frames -> frame.depth < pool.shared.length := by
    intro frame frameMember
    have entered := sound.calls.entered frame frameMember
    cases frame with
    | add frame => exact AddFrame.Entered.inside entered
    | remove frame => exact entered
  constructor
  · refine Bool.eq_false_iff.mpr fun locked => last ?_
    rcases List.any_eq_true.mp locked with ⟨holder, holderMember, holds⟩
    rcases List.mem_filterMap.mp holderMember with ⟨other, otherMember, asAdd⟩
    rcases AddFrame.split_of_holds holds with ⟨same, index, stage⟩
    cases other with
    | add frame =>
        cases asAdd
        have entered : holder.Entered own pool.shared := sound.calls.entered _ otherMember
        exact same ▸ entered.opened (by rw [AddFrame.splits, stage]; exact beq_self_eq_true _)
    | remove frame => cases asAdd
  · refine Pool.Nested.on_top sound.nested member fun other otherMember => ?_
    have bound := inside other otherMember
    unfold HasNext at last
    omega

theorem step_last {moving : TableFrame} {callers : List TableFrame} (found : pool.tasks[task]? = some (moving :: callers))
    {shared : Chain} {replacement : List TableFrame}
    (advanced : moving.advance pool.shared pool.frames = some (shared, replacement)) :
    Exists fun next => Pool.step TableFrame.advance pool task = some next ∧ next.shared = shared ∧
      (forall new, new ∈ replacement -> new ∈ next.frames) ∧
      forall other, other ∈ pool.frames -> other ≠ moving -> other ∈ next.frames := by
  have moves : (TableFrame.advance pool.shared pool.frames moving).isSome = true := Option.isSome_of_eq_some advanced
  rcases Pool.exists_step_of_top found moves with ⟨next, stepped⟩
  rcases Pool.step_eq_some stepped with ⟨frame, _, others, replaced, found', before, advanced', after⟩
  rw [found] at found'
  cases found'
  rw [advanced] at advanced'
  cases advanced'
  refine ⟨next, stepped, rfl, fun new member => after.mem_iff.mpr (List.mem_append_left _ member),
    fun other member different => after.mem_iff.mpr (List.mem_append_right _ ?_)⟩
  exact (List.mem_cons.mp (before.mem_iff.mp member)).resolve_left different

/-- A call that finds a last bucket not full, between its readings of the length, goes
on into a bucket that is not there. -/
theorem Sound.panics_of_short (sound : pool.Sound own kSize) {adding : AddFrame} (member : .add adding ∈ pool.frames)
    (stage : adding.stage = .recheckNext ∨ adding.stage = .recheckLen) (last : ¬HasNext pool.shared adding.depth)
    (found : pool.shared[adding.depth]? = some self) (short : self.nodes.length < self.kSize.toNat)
    (leaves : self.belongsHere adding.node = false) :
    Exists fun schedule => Exists fun final => run pool schedule = some final ∧ final.Panics := by
  have fromLen : forall {pool : TablePool}, pool.Sound own kSize -> pool.shared[adding.depth]? = some self ->
      ¬HasNext pool.shared adding.depth -> .add { adding with stage := .recheckLen } ∈ pool.frames ->
      Exists fun schedule => Exists fun final => run pool schedule = some final ∧ final.Panics := by
    intro pool sound found last member
    rcases sound.moves_in_last member last with ⟨unlocked, task, callers, top⟩
    have advanced : TableFrame.advance pool.shared pool.frames (.add { adding with stage := .recheckLen }) =
        some (pool.shared, [.add { adding with stage := .route }]) := by
      change (pool.frames.filterMap TableFrame.asAdd).any (AddFrame.holds adding.depth) = false at unlocked
      simp [TableFrame.advance, AddFrame.advance, found, unlocked, Nat.ne_of_lt short]
    rcases step_last top advanced with ⟨next, stepped, shared, news, _⟩
    refine ⟨[task], next, PartialRun.run_cons_eq_some.mpr ⟨next, stepped, rfl⟩, { adding with stage := .route }, self,
      news _ List.mem_cons_self, rfl, ?_, leaves, ?_⟩
    · rw [shared]
      exact found
    · rw [shared]
      exact last
  rcases adding with ⟨at_, node, _⟩
  rcases stage with atNext | atLen
  · cases atNext
    rcases sound.moves_in_last member last with ⟨_, task, callers, top⟩
    have advanced : TableFrame.advance pool.shared pool.frames (.add ⟨at_, node, .recheckNext⟩) =
        some (pool.shared, [.add ⟨at_, node, .recheckLen⟩]) := by
      have noNext : ¬at_ + 1 < pool.shared.length := last
      simp [TableFrame.advance, AddFrame.advance, found, noNext]
    rcases step_last top advanced with ⟨next, stepped, shared, news, _⟩
    rcases fromLen (sound.step stepped) (shared ▸ found) (shared ▸ last) (news _ List.mem_cons_self) with
      ⟨schedule, final, ran, panics⟩
    exact ⟨task :: schedule, final, PartialRun.run_cons_eq_some.mpr ⟨next, stepped, ran⟩, panics⟩
  · cases atLen
    exact fromLen sound found last member

theorem Sound.panics_of_shrinks (sound : pool.Sound own kSize) (shrinks : pool.ShrinksBetween task) :
    Exists fun schedule => Exists fun final => run pool schedule = some final ∧ final.Panics := by
  rcases shrinks with ⟨moving, callers, found, shrinks⟩
  cases moving with
  | add frame => exact absurd shrinks id
  | remove frame =>
      rcases shrinks with ⟨stage, last, self, there, stored, adding, member, same, rechecking, leaves⟩
      rcases frame with ⟨at_, id, _⟩
      cases stage
      dsimp only at last there stored same
      subst same
      have moving : TableFrame.remove ⟨adding.depth, id, .erase⟩ ∈ pool.frames :=
        List.mem_flatten.mpr ⟨_, List.mem_of_getElem? found, List.mem_cons_self⟩
      have placed := sound.calls.placed _ self there
      have unlocked := (sound.moves_in_last moving last).1
      cases position : self.nodes.findIdx? (fun stored => stored.id == id) with
      | none => exact absurd stored ((findIdx?_eq_none_iff_id self.nodes id).mp position)
      | some index =>
          have inside := (List.findIdx?_eq_some_iff_findIdx_eq.mp position).1
          have advanced : TableFrame.advance pool.shared pool.frames (.remove ⟨adding.depth, id, .erase⟩) =
              some (pool.shared.set adding.depth { self with nodes := self.nodes.eraseIdx index }, []) := by
            change (pool.frames.filterMap TableFrame.asAdd).any (AddFrame.holds adding.depth) = false at unlocked
            simp [TableFrame.advance, RemoveFrame.advance, there, unlocked, position]
          rcases step_last found advanced with ⟨next, stepped, shared, _, keeps⟩
          have short : (self.nodes.eraseIdx index).length < self.kSize.toNat := by
            have bound := placed.length_le
            rw [List.length_eraseIdx_of_lt inside, placed.kSize_eq]
            omega
          have noNext : ¬HasNext next.shared adding.depth := by
            rwa [shared, HasNext, List.length_set]
          have changed : next.shared[adding.depth]? = some { self with nodes := self.nodes.eraseIdx index } := by
            rw [shared, List.getElem?_set_self (List.getElem?_eq_some_iff.mp there).1]
          rcases (sound.step stepped).panics_of_short (keeps _ member fun same => by cases same) rechecking noNext changed
            short leaves with ⟨schedule, final, ran, panics⟩
          exact ⟨task :: schedule, final, PartialRun.run_cons_eq_some.mpr ⟨next, stepped, ran⟩, panics⟩

end TablePool

/-- Some interleaving of adds and removes makes a call panic exactly when some
interleaving lets a `remove` take a contact out of a last bucket between the two
readings of its length by an `add` whose contact belongs further down. -/
theorem table_calls_panic_iff (own : U160) (kSize : UInt8) (history : List TableCall) (table : Chain)
    (answers : List (Option Bool)) (built : Bucket.performAll own kSize history = some (table, answers))
    (calls : List TableCall) :
    (Exists fun schedule => Exists fun pool =>
      TablePool.run (TablePool.start table calls) schedule = some pool ∧ pool.Panics) <->
      Exists fun schedule => Exists fun pool => Exists fun task =>
        TablePool.run (TablePool.start table calls) schedule = some pool ∧ pool.ShrinksBetween task := by
  have live := live_of_performAll built
  have started := TablePool.start_sound live calls
  constructor
  · rintro ⟨schedule, pool, ran, panics⟩
    by_contra never
    have permitted : PartialRun.Permitted (Pool.step TableFrame.advance)
        (fun (pool : TablePool) task => ¬pool.ShrinksBetween task)
        (TablePool.start table calls) schedule :=
      .of_at fun index task middle _ reached shrinks => never ⟨schedule.take index, middle, task, reached, shrinks⟩
    have entering : AllAssured own kSize table (TablePool.start table calls).frames := by
      intro frame member
      rw [TablePool.start_frames] at member
      rcases List.mem_map.mp member with ⟨call, _, same⟩
      cases call with
      | add node =>
          cases same
          trivial
      | remove id => cases same
    have preserved : forall (pool : TablePool) (task : Nat) (next : TablePool),
        pool.Sound own kSize ∧ AllAssured own kSize pool.shared pool.frames -> ¬pool.ShrinksBetween task ->
        Pool.step TableFrame.advance pool task = some next ->
        next.Sound own kSize ∧ AllAssured own kSize next.shared next.frames :=
      fun _ _ _ holds between stepped =>
        ⟨holds.1.step stepped, TablePool.allAssured_step holds.1 holds.2 between stepped⟩
    have both := PartialRun.run_invariant_of_permitted preserved ⟨started, entering⟩ permitted ran
    exact both.1.calm both.2 panics
  · rintro ⟨schedule, pool, task, ran, shrinks⟩
    have sound : pool.Sound own kSize :=
      PartialRun.run_invariant (fun _ _ _ sound stepped => sound.step stepped) started ran
    rcases sound.panics_of_shrinks shrinks with ⟨more, final, later, panics⟩
    exact ⟨schedule ++ more, final, PartialRun.run_append_eq_some.mpr ⟨pool, ran, later⟩, panics⟩

/-! ## A contact is removed in between -/

namespace RemovedBetween

open StaleSchedule (near)

theorem shrinks : pool.ShrinksBetween 1 :=
  ⟨_, _, rfl, rfl, Nat.lt_irrefl 1, _, rfl, by decide, ⟨0, near, .recheckNext⟩, by decide, rfl, Or.inl rfl, by decide +kernel⟩

end RemovedBetween

open RemovedBetween in
theorem table_calls_panic_removed_between :
    Exists fun schedule => Exists fun final =>
      TablePool.run (TablePool.start oneBucket [.add StaleSchedule.near, .remove StaleSchedule.far.id]) schedule =
        some final ∧ final.Panics :=
  (table_calls_panic_iff .min 1 [.add StaleSchedule.far] oneBucket [none] built
    [.add StaleSchedule.near, .remove StaleSchedule.far.id]).mpr ⟨schedule, pool, 1, ran, shrinks⟩

end DhtExplorer
