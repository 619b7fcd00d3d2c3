import Mathlib.Data.List.Basic

/-!
# Runs of partial step functions

A system is given by a step function that may refuse an action.  A refusal
models whatever has no successor: a blocked lock, an action that does not
apply, or a panic.  Runs are finite lists of actions, so a statement about
every run is a statement about every interleaving the action list can express.

Invariants are proved once per step.  The rules below carry them to runs, also
when the step lemma needs a side condition on the actions actually taken.
-/

namespace PartialRun

universe u v w

variable {State : Type u} {Action : Type v}

/-- Perform the actions in order.  A refused step leaves no final state. -/
def run (step : State -> Action -> Option State) : State -> List Action -> Option State
  | state, [] => some state
  | state, action :: rest => (step state action).bind fun next => run step next rest

variable {step : State -> Action -> Option State}

@[simp] theorem run_nil (state : State) : run step state [] = some state := rfl

theorem run_cons_eq_some {state final : State} {action : Action} {rest : List Action} :
    run step state (action :: rest) = some final <->
      Exists fun next => step state action = some next ∧ run step next rest = some final := by
  simp only [run, Option.bind_eq_some_iff]

theorem run_append_eq_some {state final : State} {first second : List Action} :
    run step state (first ++ second) = some final <->
      Exists fun middle => run step state first = some middle ∧ run step middle second = some final := by
  induction first generalizing state with
  | nil => simp
  | cons action rest inductionHypothesis =>
      rw [List.cons_append, run_cons_eq_some]
      constructor
      · rintro ⟨next, taken, later⟩
        rcases inductionHypothesis.mp later with ⟨middle, before, after⟩
        exact ⟨middle, run_cons_eq_some.mpr ⟨next, taken, before⟩, after⟩
      · rintro ⟨middle, before, after⟩
        rcases run_cons_eq_some.mp before with ⟨next, taken, before⟩
        exact ⟨next, taken, inductionHypothesis.mpr ⟨middle, before, after⟩⟩

/-- Every action of the run is taken in a state that permits it. -/
def Permitted (step : State -> Action -> Option State) (permits : State -> Action -> Prop) :
    State -> List Action -> Prop
  | _, [] => True
  | state, action :: rest =>
      permits state action ∧
        forall next, step state action = some next -> Permitted step permits next rest

/-- Whether a run is permitted can be found out by performing it. -/
instance decidablePermitted (permits : State -> Action -> Prop) [forall state action, Decidable (permits state action)] :
    (state : State) -> (actions : List Action) -> Decidable (Permitted step permits state actions)
  | _, [] => isTrue trivial
  | state, action :: rest =>
      have : Decidable (forall next, step state action = some next -> Permitted step permits next rest) :=
        match step state action with
        | none => isTrue fun _ taken => absurd taken.symm (Option.some_ne_none _)
        | some next =>
            have := decidablePermitted permits next rest
            decidable_of_iff (Permitted step permits next rest)
              ⟨fun permitted _ taken => Option.some.inj taken ▸ permitted, fun all => all next rfl⟩
      inferInstanceAs (Decidable (permits state action ∧ _))

variable {permits : State -> Action -> Prop} {invariant : State -> Prop}

/-- A permitted run permits each of its actions in the state that it is taken in. -/
theorem Permitted.at {state middle : State} {before after : List Action} {action : Action}
    (permitted : Permitted step permits state (before ++ action :: after))
    (reached : run step state before = some middle) : permits middle action := by
  induction before generalizing state with
  | nil =>
      rw [run_nil, Option.some.injEq] at reached
      exact reached ▸ permitted.1
  | cons first rest inductionHypothesis =>
      rcases run_cons_eq_some.mp reached with ⟨next, taken, later⟩
      exact inductionHypothesis (permitted.2 next taken) later

theorem Permitted.of_at {state : State} {actions : List Action}
    (permits_at : forall (index : Nat) (action : Action) (middle : State), actions[index]? = some action ->
      run step state (actions.take index) = some middle -> permits middle action) :
    Permitted step permits state actions := by
  induction actions generalizing state with
  | nil => trivial
  | cons first rest inductionHypothesis =>
      refine ⟨permits_at 0 first state rfl rfl, fun next taken => inductionHypothesis ?_⟩
      intro index action middle found reached
      exact permits_at (index + 1) action middle found (run_cons_eq_some.mpr ⟨next, taken, reached⟩)

theorem Permitted.imp {other : State -> Action -> Prop} {state : State} {actions : List Action}
    (permitted : Permitted step permits state actions)
    (implies : forall state action, permits state action -> other state action) : Permitted step other state actions := by
  induction actions generalizing state with
  | nil => trivial
  | cons action rest inductionHypothesis =>
      exact ⟨implies state action permitted.1, fun next taken => inductionHypothesis (permitted.2 next taken)⟩

/-- The run rule: what every permitted step preserves, a permitted run preserves. -/
theorem run_invariant_of_permitted
    (preserved : forall state action next, invariant state -> permits state action ->
      step state action = some next -> invariant next)
    {state final : State} {actions : List Action} (holds : invariant state)
    (permitted : Permitted step permits state actions)
    (reached : run step state actions = some final) : invariant final := by
  induction actions generalizing state with
  | nil =>
      rw [run_nil, Option.some.injEq] at reached
      exact reached ▸ holds
  | cons action rest inductionHypothesis =>
      rcases run_cons_eq_some.mp reached with ⟨next, taken, later⟩
      exact inductionHypothesis (preserved state action next holds permitted.1 taken)
        (permitted.2 next taken) later

/-- The unconditional run rule. -/
theorem run_invariant
    (preserved : forall state action next, invariant state ->
      step state action = some next -> invariant next)
    {state final : State} {actions : List Action} (holds : invariant state)
    (reached : run step state actions = some final) : invariant final := by
  induction actions generalizing state with
  | nil =>
      rw [run_nil, Option.some.injEq] at reached
      exact reached ▸ holds
  | cons action rest inductionHypothesis =>
      rcases run_cons_eq_some.mp reached with ⟨next, taken, later⟩
      exact inductionHypothesis (preserved state action next holds taken) later

/-- What holds of a state and of the actions that led there. -/
theorem run_history {holds : List Action -> State -> Prop}
    (kept : forall history state action next, holds history state ->
      step state action = some next -> holds (history ++ [action]) next)
    {history : List Action} {state final : State} {actions : List Action} (start : holds history state)
    (reached : run step state actions = some final) : holds (history ++ actions) final := by
  induction actions generalizing history state with
  | nil =>
      rw [run_nil, Option.some.injEq] at reached
      rw [List.append_nil]
      exact reached ▸ start
  | cons action rest inductionHypothesis =>
      rcases run_cons_eq_some.mp reached with ⟨next, taken, later⟩
      rw [List.append_cons]
      exact inductionHypothesis (kept history state action next start taken) later

/-- Where the step never refuses, every run has an end. -/
theorem run_of_invariant
    (succeeds : forall state action, invariant state ->
      Exists fun next => step state action = some next ∧ invariant next)
    {state : State} (actions : List Action) (start : invariant state) :
    Exists fun final => run step state actions = some final ∧ invariant final := by
  induction actions generalizing state with
  | nil => exact ⟨state, rfl, start⟩
  | cons action rest inductionHypothesis =>
      rcases succeeds state action start with ⟨next, taken, holds⟩
      rcases inductionHypothesis holds with ⟨final, reached, holdsLater⟩
      exact ⟨final, run_cons_eq_some.mpr ⟨next, taken, reached⟩, holdsLater⟩

/-- Where some allowed step makes progress in every state that is not done, a run of
allowed steps gets done. -/
theorem run_until_done {allowed : Action -> Prop} {done : State -> Prop} {measure : State -> Nat}
    (progress : forall state, invariant state -> ¬done state -> Exists fun action => Exists fun next =>
      allowed action ∧ step state action = some next ∧ invariant next ∧ measure next < measure state)
    {state : State} (holds : invariant state) :
    Exists fun actions => Exists fun final => run step state actions = some final ∧
      (forall action, action ∈ actions -> allowed action) ∧ invariant final ∧ done final := by
  generalize bound : measure state = size
  induction size using Nat.strongRecOn generalizing state with
  | ind size inductionHypothesis =>
      by_cases finished : done state
      · exact ⟨[], state, rfl, fun _ member => absurd member List.not_mem_nil, holds, finished⟩
      · rcases progress state holds finished with ⟨action, next, fits, taken, kept, smaller⟩
        rcases inductionHypothesis (measure next) (bound ▸ smaller) kept rfl with ⟨actions, final, ran, all, last, ends⟩
        refine ⟨action :: actions, final, run_cons_eq_some.mpr ⟨next, taken, ran⟩, fun other member => ?_, last, ends⟩
        rcases List.mem_cons.mp member with rfl | later
        · exact fits
        · exact all other later

/-- The termination rule: a measure that every permitted step decreases bounds every
permitted run. -/
theorem run_length_le_of_permitted {measure : State -> Nat}
    (preserved : forall state action next, invariant state -> permits state action ->
      step state action = some next -> invariant next)
    (decreases : forall state action next, invariant state -> permits state action ->
      step state action = some next -> measure next < measure state)
    {state final : State} {actions : List Action} (holds : invariant state)
    (permitted : Permitted step permits state actions)
    (reached : run step state actions = some final) : actions.length + measure final ≤ measure state := by
  induction actions generalizing state with
  | nil =>
      rw [run_nil, Option.some.injEq] at reached
      subst reached
      exact Nat.le_of_eq (Nat.zero_add _)
  | cons action rest inductionHypothesis =>
      rcases run_cons_eq_some.mp reached with ⟨next, taken, later⟩
      have smaller := decreases state action next holds permitted.1 taken
      have bound := inductionHypothesis (preserved state action next holds permitted.1 taken) (permitted.2 next taken)
        later
      rw [List.length_cons]
      omega

/-- The unconditional termination rule. -/
theorem run_length_le {measure : State -> Nat}
    (preserved : forall state action next, invariant state ->
      step state action = some next -> invariant next)
    (decreases : forall state action next, invariant state ->
      step state action = some next -> measure next < measure state)
    {state final : State} {actions : List Action} (holds : invariant state)
    (reached : run step state actions = some final) : actions.length + measure final ≤ measure state :=
  run_length_le_of_permitted (fun state action next holds (_ : True) => preserved state action next holds)
    (fun state action next holds _ => decreases state action next holds) holds
    (Permitted.of_at fun _ _ _ _ _ => trivial) reached

/-- What every forbidden step establishes, and no step repairs, holds at the end
of every run that is not permitted. -/
theorem run_broken_of_not_permitted {broken : State -> Prop}
    (preserved : forall state action next, invariant state ->
      step state action = some next -> invariant next)
    (breaks : forall state action next, invariant state -> ¬permits state action ->
      step state action = some next -> broken next)
    (persists : forall state action next, invariant state -> broken state ->
      step state action = some next -> broken next)
    {state final : State} {actions : List Action} (holds : invariant state)
    (forbidden : ¬Permitted step permits state actions)
    (reached : run step state actions = some final) : broken final := by
  have stays : forall {state : State} {actions : List Action}, invariant state -> broken state ->
      run step state actions = some final -> broken final := by
    intro state actions holds already reached
    have together : forall state action next, invariant state ∧ broken state ->
        step state action = some next -> invariant next ∧ broken next :=
      fun state action next both taken =>
        ⟨preserved state action next both.1 taken, persists state action next both.1 both.2 taken⟩
    exact (run_invariant together ⟨holds, already⟩ reached).2
  induction actions generalizing state with
  | nil => exact absurd trivial forbidden
  | cons action rest inductionHypothesis =>
      rcases run_cons_eq_some.mp reached with ⟨next, taken, later⟩
      have holdsNext := preserved state action next holds taken
      by_cases permitted : permits state action
      · refine inductionHypothesis holdsNext ?_ later
        intro restPermitted
        refine forbidden ⟨permitted, ?_⟩
        intro other takenToo
        rw [taken, Option.some.injEq] at takenToo
        exact takenToo ▸ restPermitted
      · exact stays holdsNext (breaks state action next holds permitted taken) later

/-- Two conditions that agree wherever an invariant holds permit the same runs. -/
theorem permitted_iff {other : State -> Action -> Prop}
    (preserved : forall state action next, invariant state ->
      step state action = some next -> invariant next)
    (agree : forall state action, invariant state -> (permits state action <-> other state action))
    {state : State} (actions : List Action) (holds : invariant state) :
    Permitted step permits state actions <-> Permitted step other state actions := by
  induction actions generalizing state with
  | nil => exact Iff.rfl
  | cons action rest inductionHypothesis =>
      have later : forall next, step state action = some next ->
          (Permitted step permits next rest <-> Permitted step other next rest) :=
        fun next taken => inductionHypothesis (preserved state action next holds taken)
      rw [Permitted, Permitted, agree state action holds]
      exact and_congr_right fun _ => forall_congr' fun next => forall_congr' fun taken => later next taken

/-- The property holds in every state the run reaches. -/
def Always (step : State -> Action -> Option State) (property : State -> Prop) :
    State -> List Action -> Prop
  | state, [] => property state
  | state, action :: rest =>
      property state ∧ forall next, step state action = some next -> Always step property next rest

/-- Whether something always holds can be found out by performing the run. -/
instance decidableAlways (property : State -> Prop) [DecidablePred property] :
    (state : State) -> (actions : List Action) -> Decidable (Always step property state actions)
  | state, [] => inferInstanceAs (Decidable (property state))
  | state, action :: rest =>
      have : DecidablePred fun next => Always step property next rest := fun next => decidableAlways property next rest
      inferInstanceAs
        (Decidable (property state ∧ forall next, next ∈ step state action -> Always step property next rest))

theorem Always.start {property : State -> Prop} {state : State} {actions : List Action}
    (always : Always step property state actions) : property state := by
  cases actions with
  | nil => exact always
  | cons action rest => exact always.1

theorem Always.imp {property other : State -> Prop} {state : State} {actions : List Action}
    (always : Always step property state actions) (implies : forall state, property state -> other state) :
    Always step other state actions := by
  induction actions generalizing state with
  | nil => exact implies state always
  | cons action rest inductionHypothesis =>
      exact ⟨implies state always.1, fun next taken => inductionHypothesis (always.2 next taken)⟩

/-- What always holds permits every step. -/
theorem Always.permitted {property : State -> Prop} {state : State} {actions : List Action}
    (always : Always step property state actions) : Permitted step (fun state _ => property state) state actions := by
  induction actions generalizing state with
  | nil => trivial
  | cons action rest inductionHypothesis => exact ⟨always.1, fun next taken => inductionHypothesis (always.2 next taken)⟩

/-- A permitted run never leaves what its steps preserve. -/
theorem always_of_permitted
    (preserved : forall state action next, invariant state -> permits state action ->
      step state action = some next -> invariant next)
    {state : State} {actions : List Action} (holds : invariant state)
    (permitted : Permitted step permits state actions) : Always step invariant state actions := by
  induction actions generalizing state with
  | nil => exact holds
  | cons action rest inductionHypothesis =>
      refine ⟨holds, fun next taken => ?_⟩
      exact inductionHypothesis (preserved state action next holds permitted.1 taken) (permitted.2 next taken)

/-- When the permitted steps are exactly those that keep a property, the property
holds throughout a run exactly when the run is permitted. -/
theorem always_iff_permitted {property : State -> Prop}
    (preserved : forall state action next, invariant state ->
      step state action = some next -> invariant next)
    (exact' : forall state action, invariant state -> property state ->
      (permits state action <-> forall next, step state action = some next -> property next))
    {state : State} {actions : List Action} (holds : invariant state) (initially : property state) :
    Always step property state actions <-> Permitted step permits state actions := by
  induction actions generalizing state with
  | nil => exact ⟨fun _ => trivial, fun _ => initially⟩
  | cons action rest inductionHypothesis =>
      constructor
      · rintro ⟨_, later⟩
        refine ⟨(exact' state action holds initially).mpr fun next taken => (later next taken).start, ?_⟩
        intro next taken
        exact (inductionHypothesis (preserved state action next holds taken) (later next taken).start).mp
          (later next taken)
      · rintro ⟨permitted, later⟩
        refine ⟨initially, fun next taken => ?_⟩
        have kept := (exact' state action holds initially).mp permitted next taken
        exact (inductionHypothesis (preserved state action next holds taken) kept).mpr (later next taken)

/-- When a step ends with a property exactly when it starts with it and is
permitted, the end of a run tells whether the run was permitted. -/
theorem run_property_iff {property : State -> Prop}
    (exact' : forall state action next, step state action = some next ->
      (property next <-> property state ∧ permits state action))
    {state final : State} {actions : List Action} (reached : run step state actions = some final) :
    property final <-> property state ∧ Permitted step permits state actions := by
  induction actions generalizing state with
  | nil =>
      rw [run_nil, Option.some.injEq] at reached
      exact reached ▸ (and_iff_left trivial).symm
  | cons action rest inductionHypothesis =>
      rcases run_cons_eq_some.mp reached with ⟨next, taken, later⟩
      have rest_iff : (forall other, step state action = some other -> Permitted step permits other rest) <->
          Permitted step permits next rest := by
        rw [taken]
        exact ⟨fun all => all next rfl, fun permitted other same => Option.some.inj same ▸ permitted⟩
      rw [Permitted, rest_iff, inductionHypothesis later, exact' state action next taken, and_assoc]

/-! ## Where facts come from -/

/-- A fact that holds at the end of a run held at its start, or one of its steps
created it. -/
theorem run_origin {Item : Type w} {fact : State -> Item -> Prop} {creates : State -> Action -> Item -> Prop}
    (origin : forall state action next item, step state action = some next -> fact next item ->
      fact state item ∨ creates state action item)
    {state final : State} {actions : List Action} {item : Item}
    (reached : run step state actions = some final) (holds : fact final item) :
    fact state item ∨ Exists fun before => Exists fun action => Exists fun after => Exists fun middle =>
      actions = before ++ action :: after ∧ run step state before = some middle ∧
      creates middle action item := by
  induction actions generalizing state with
  | nil =>
      rw [run_nil, Option.some.injEq] at reached
      exact Or.inl (reached ▸ holds)
  | cons action rest inductionHypothesis =>
      rcases run_cons_eq_some.mp reached with ⟨next, taken, later⟩
      rcases inductionHypothesis later with already | ⟨before, creator, after, middle, split, there, created⟩
      · rcases origin state action next item taken already with old | new
        · exact Or.inl old
        · exact Or.inr ⟨[], action, rest, state, rfl, rfl, new⟩
      · refine Or.inr ⟨action :: before, creator, after, middle, ?_, ?_, created⟩
        · rw [split]
          rfl
        · exact run_cons_eq_some.mpr ⟨next, taken, there⟩

/-- A fact that no step destroys holds at the end of a run exactly when it held at
its start or one of its steps created it. -/
theorem run_fact_iff {Item : Type w} {fact : State -> Item -> Prop} {creates : State -> Action -> Item -> Prop}
    (fact_iff : forall state action next item, step state action = some next ->
      (fact next item <-> fact state item ∨ creates state action item))
    {state final : State} {actions : List Action} {item : Item}
    (reached : run step state actions = some final) :
    fact final item <-> fact state item ∨ Exists fun before => Exists fun action => Exists fun after =>
      Exists fun middle => actions = before ++ action :: after ∧ run step state before = some middle ∧
        creates middle action item := by
  have stays : forall {state final : State} {actions : List Action}, fact state item ->
      run step state actions = some final -> fact final item := by
    intro state final actions holds reached
    have kept : forall state action next, fact state item -> step state action = some next -> fact next item :=
      fun state action next before taken => (fact_iff state action next item taken).mpr (Or.inl before)
    exact run_invariant kept holds reached
  constructor
  · exact run_origin (fun state action next item taken => (fact_iff state action next item taken).mp) reached
  · rintro (initially | ⟨before, action, after, middle, split, there, created⟩)
    · exact stays initially reached
    · rw [split] at reached
      rcases run_append_eq_some.mp reached with ⟨same, thereToo, later⟩
      rw [there, Option.some.injEq] at thereToo
      subst thereToo
      rcases run_cons_eq_some.mp later with ⟨next, taken, rest⟩
      exact stays ((fact_iff middle action next item taken).mpr (Or.inr created)) rest

/-! ## States on the way -/

/-- The run is in the state after some of its actions. -/
def Passes (step : State -> Action -> Option State) (start : State) (actions : List Action) (state : State) : Prop :=
  Exists fun before => Exists fun after => actions = before ++ after ∧ run step start before = some state

theorem Passes.append {start state : State} {actions : List Action} (passes : Passes step start actions state)
    (later : List Action) : Passes step start (actions ++ later) state := by
  rcases passes with ⟨before, after, rfl, reached⟩
  exact ⟨before, after ++ later, List.append_assoc before after later, reached⟩

theorem passes_final {start final : State} {actions : List Action} (reached : run step start actions = some final) :
    Passes step start actions final := ⟨actions, [], (List.append_nil actions).symm, reached⟩

/-- What a run passes through, it reaches by a run. -/
theorem Passes.keeps {start state : State} {actions : List Action} (passes : Passes step start actions state)
    (preserved : forall state action next, invariant state -> step state action = some next -> invariant next)
    (holds : invariant start) : invariant state := by
  rcases passes with ⟨before, after, _, reached⟩
  exact run_invariant preserved holds reached

/-- A fact about the actions so far holds in every state that is reached. -/
theorem run_passing {start final : State} {holds : List Action -> State -> Prop}
    (kept : forall history state action next, run step start history = some state -> holds history state ->
      step state action = some next -> holds (history ++ [action]) next)
    {actions : List Action} (initially : holds [] start) (reached : run step start actions = some final) :
    holds actions final := by
  have both : forall history state action next, (run step start history = some state ∧ holds history state) ->
      step state action = some next ->
      run step start (history ++ [action]) = some next ∧ holds (history ++ [action]) next :=
    fun history state action next before taken =>
      ⟨run_append_eq_some.mpr ⟨state, before.1, run_cons_eq_some.mpr ⟨next, taken, rfl⟩⟩,
        kept history state action next before.1 before.2 taken⟩
  exact (run_history both ⟨rfl, initially⟩ reached).2

/-! ## What a run costs -/

/-- The sum of the prices of the steps. -/
def cost (step : State -> Action -> Option State) (price : State -> Action -> Nat) : State -> List Action -> Nat
  | _, [] => 0
  | state, action :: rest =>
      price state action +
        match step state action with
        | none => 0
        | some next => cost step price next rest

/-- The amortised rule: only charged actions pay into the potential, one at a time, and
every price is taken out of it. -/
theorem cost_le {price : State -> Action -> Nat} {charged : Action -> Bool} {potential : State -> Nat}
    (preserved : forall state action next, invariant state -> step state action = some next -> invariant next)
    (pays : forall state action next, invariant state -> step state action = some next ->
      price state action + potential next ≤ potential state + if charged action then 1 else 0)
    {state final : State} {actions : List Action} (holds : invariant state)
    (reached : run step state actions = some final) :
    cost step price state actions + potential final ≤ potential state + actions.countP charged := by
  induction actions generalizing state with
  | nil =>
      rw [run_nil, Option.some.injEq] at reached
      subst reached
      exact Nat.le_of_eq (Nat.zero_add _)
  | cons action rest inductionHypothesis =>
      rcases run_cons_eq_some.mp reached with ⟨next, taken, later⟩
      have first := pays state action next holds taken
      have others := inductionHypothesis (preserved state action next holds taken) later
      rw [cost, taken, List.countP_cons]
      dsimp only
      omega

/-! ## Runs that answer -/

variable {Output : Type w}

/-- Perform the actions in order and collect what each one returns. -/
def replies (answer : State -> Action -> Option (State × Output)) :
    State -> List Action -> Option (State × List Output)
  | state, [] => some (state, [])
  | state, action :: rest =>
      (answer state action).bind fun first =>
        (replies answer first.1 rest).map fun later => (later.1, first.2 :: later.2)

/-- A machine that answers in every state of an invariant, and stays there,
answers along every run. -/
theorem replies_of_invariant {answer : State -> Action -> Option (State × Output)}
    (answers : forall state action, invariant state ->
      Exists fun next => Exists fun output =>
        answer state action = some (next, output) ∧ invariant next)
    {state : State} (actions : List Action) (start : invariant state) :
    Exists fun final => Exists fun outputs =>
      replies answer state actions = some (final, outputs) ∧ invariant final := by
  induction actions generalizing state with
  | nil => exact ⟨state, [], rfl, start⟩
  | cons action rest inductionHypothesis =>
      rcases answers state action start with ⟨next, output, answered, holds⟩
      rcases inductionHypothesis holds with ⟨final, outputs, run, holdsLater⟩
      refine ⟨final, output :: outputs, ?_, holdsLater⟩
      simp only [replies, answered, Option.bind_some, run, Option.map_some]

/-- The same with an invariant that speaks about what was done so far. -/
theorem replies_of_history {answer : State -> Action -> Option (State × Output)}
    {holds : List Action -> State -> Prop}
    (answers : forall history state action, holds history state ->
      Exists fun next => Exists fun output =>
        answer state action = some (next, output) ∧ holds (history ++ [action]) next)
    {history : List Action} {state : State} (actions : List Action) (start : holds history state) :
    Exists fun final => Exists fun outputs =>
      replies answer state actions = some (final, outputs) ∧ holds (history ++ actions) final := by
  induction actions generalizing history state with
  | nil => exact ⟨state, [], rfl, (List.append_nil history).symm ▸ start⟩
  | cons action rest inductionHypothesis =>
      rcases answers history state action start with ⟨next, output, answered, holdsNext⟩
      rcases inductionHypothesis holdsNext with ⟨final, outputs, run, holdsLater⟩
      refine ⟨final, output :: outputs, ?_, ?_⟩
      · simp only [replies, answered, Option.bind_some, run, Option.map_some]
      · rwa [List.append_assoc] at holdsLater

/-- Two machines that answer alike in related states, and stay related, answer
alike along every run. -/
theorem replies_simulation {Abstract : Type w} {related : State -> Abstract -> Prop}
    {answer : State -> Action -> Option (State × Output)}
    {specified : Abstract -> Action -> Option (Abstract × Output)}
    (simulates : forall state abstract action, related state abstract ->
      Exists fun next => Exists fun nextAbstract => Exists fun output =>
        answer state action = some (next, output) ∧
        specified abstract action = some (nextAbstract, output) ∧
        related next nextAbstract)
    {state : State} {abstract : Abstract} (actions : List Action) (start : related state abstract) :
    Exists fun final => Exists fun finalAbstract => Exists fun outputs =>
      replies answer state actions = some (final, outputs) ∧
      replies specified abstract actions = some (finalAbstract, outputs) ∧
      related final finalAbstract := by
  induction actions generalizing state abstract with
  | nil => exact ⟨state, abstract, [], rfl, rfl, start⟩
  | cons action rest inductionHypothesis =>
      rcases simulates state abstract action start with
        ⟨next, nextAbstract, output, answered, specifiedToo, related⟩
      rcases inductionHypothesis related with
        ⟨final, finalAbstract, outputs, run, abstractRun, finalRelated⟩
      refine ⟨final, finalAbstract, output :: outputs, ?_, ?_, finalRelated⟩
      · simp only [replies, answered, Option.bind_some, run, Option.map_some]
      · simp only [replies, specifiedToo, Option.bind_some, abstractRun, Option.map_some]

theorem replies_append {answer : State -> Action -> Option (State × Output)} {state middle final : State}
    {first second : List Action} {earlier later : List Output} (before : replies answer state first = some (middle, earlier))
    (after : replies answer middle second = some (final, later)) :
    replies answer state (first ++ second) = some (final, earlier ++ later) := by
  induction first generalizing state earlier with
  | nil =>
      cases before
      exact after
  | cons action rest inductionHypothesis =>
      rw [replies, Option.bind_eq_some_iff] at before
      rcases before with ⟨⟨next, output⟩, answered, rest_eq⟩
      rcases Option.map_eq_some_iff.mp rest_eq with ⟨⟨last, outputs⟩, run, same⟩
      cases same
      simp only [List.cons_append, replies, answered, Option.bind_some, inductionHypothesis run, Option.map_some]

theorem replies_cons_eq_some {answer : State -> Action -> Option (State × Output)} {state final : State}
    {action : Action} {rest : List Action} {outputs : List Output} :
    replies answer state (action :: rest) = some (final, outputs) <->
      Exists fun next => Exists fun output => Exists fun later => answer state action = some (next, output) ∧
        replies answer next rest = some (final, later) ∧ outputs = output :: later := by
  simp only [replies, Option.bind_eq_some_iff, Option.map_eq_some_iff, Prod.exists, Prod.mk.injEq]
  constructor
  · rintro ⟨next, output, answered, _, later, replied, rfl, rfl⟩
    exact ⟨next, output, later, answered, replied, rfl⟩
  · rintro ⟨next, output, later, answered, replied, rfl⟩
    exact ⟨next, output, answered, final, later, replied, rfl, rfl⟩

/-- The machine without its answers. -/
def silent (answer : State -> Action -> Option (State × Output)) (state : State) (action : Action) : Option State :=
  (answer state action).map Prod.fst

theorem silent_eq_some {answer : State -> Action -> Option (State × Output)} {state next : State} {action : Action} :
    silent answer state action = some next <-> Exists fun output => answer state action = some (next, output) := by
  simp [silent, Option.map_eq_some_iff]

/-- A run that answers is a run. -/
theorem run_of_replies {answer : State -> Action -> Option (State × Output)} {state final : State}
    {actions : List Action} {outputs : List Output} (replied : replies answer state actions = some (final, outputs)) :
    run (silent answer) state actions = some final := by
  induction actions generalizing state outputs with
  | nil =>
      cases replied
      rfl
  | cons action rest inductionHypothesis =>
      rcases replies_cons_eq_some.mp replied with ⟨next, output, later, answered, repliedLater, _⟩
      exact run_cons_eq_some.mpr ⟨next, silent_eq_some.mpr ⟨output, answered⟩, inductionHypothesis repliedLater⟩

/-- Each output of a run is the answer in the state that the actions before led to. -/
theorem replies_at {answer : State -> Action -> Option (State × Output)} {state final : State}
    {actions : List Action} {outputs : List Output}
    (replied : replies answer state actions = some (final, outputs)) {index : Nat} {action : Action}
    (found : actions[index]? = some action) :
    Exists fun middle => Exists fun earlier => Exists fun next => Exists fun output =>
      replies answer state (actions.take index) = some (middle, earlier) ∧
      answer middle action = some (next, output) ∧ outputs[index]? = some output := by
  induction actions generalizing state outputs index with
  | nil => cases found
  | cons first rest inductionHypothesis =>
      rcases replies_cons_eq_some.mp replied with ⟨next, output, later, answered, repliedLater, rfl⟩
      cases index with
      | zero =>
          cases found
          exact ⟨state, [], next, output, rfl, answered, rfl⟩
      | succ index =>
          rcases inductionHypothesis repliedLater found with ⟨middle, earlier, after, own, before, ownAnswer, there⟩
          exact ⟨middle, output :: earlier, after, own, replies_cons_eq_some.mpr
            ⟨next, output, earlier, answered, before, rfl⟩, ownAnswer, there⟩

end PartialRun
