import DhtExplorer.Library.PartialRun
import Mathlib.Data.List.Perm.Basic

/-!
# Networks of nodes that exchange packets

Nodes are state machines that take steps of their own and steps on the arrival of a
packet, and send packets while they do.  A packet on the wire is delivered at any time,
to a node with its destination, or it is lost, and it can be duplicated on the way.  So
packets arrive in any order, and a list of actions is one schedule of the whole network.

Two rules relate the network to its nodes.  What a node does in a network is a run of
that node alone, in which every packet that arrives was on the wire.  And if nobody
answers an answer, the traffic is bounded by the packets that nobody asked for.
-/

namespace PacketNetwork

/-- A packet on its way. -/
structure Parcel (Address Content : Type) where
  source : Address
  destination : Address
  content : Content
deriving DecidableEq, Repr

/-- What the nodes of a network have in common.  A note holds everything about an
arrival that the packet does not decide. -/
structure NodeKind (Config State Event Note Address Content : Type) where
  address : Config -> Address
  step : Config -> State -> Event -> Option State
  sends : Config -> State -> Event -> List (Content × Address)
  own : Event -> Bool
  arrival : Content -> Address -> Note -> Event

structure Network (State Address Content : Type) where
  nodes : List State
  wire : List (Parcel Address Content)

inductive Action (Event Note : Type) where
  | own (node : Nat) (event : Event)
  | deliver (parcel node : Nat) (note : Note)
  | lose (parcel : Nat)
  | duplicate (parcel : Nat)

variable {Config State Event Note Address Content : Type}

/-- The packets of a node as they go on the wire. -/
def NodeKind.post (kind : NodeKind Config State Event Note Address Content) (config : Config) (state : State)
    (event : Event) : List (Parcel Address Content) :=
  (kind.sends config state event).map fun packet => ⟨kind.address config, packet.2, packet.1⟩

namespace Network

variable (kind : NodeKind Config State Event Note Address Content) (configs : List Config)

/-- A node takes a step, while the given packets are on the wire. -/
def move (self : Network State Address Content) (wire : List (Parcel Address Content)) (node : Nat) (event : Event) :
    Option (Network State Address Content) :=
  configs[node]?.bind fun config =>
    self.nodes[node]?.bind fun state =>
      (kind.step config state event).map fun next =>
        { nodes := self.nodes.set node next, wire := wire ++ kind.post config state event }

variable {kind configs} in
theorem move_eq_some {self next : Network State Address Content} {wire : List (Parcel Address Content)} {index : Nat}
    {event : Event} :
    self.move kind configs wire index event = some next <->
      Exists fun config => Exists fun state => Exists fun after => configs[index]? = some config ∧
        self.nodes[index]? = some state ∧ kind.step config state event = some after ∧
        next = { nodes := self.nodes.set index after, wire := wire ++ kind.post config state event } := by
  rw [move, Option.bind_eq_some_iff]
  constructor
  · rintro ⟨config, there, moved⟩
    rcases Option.bind_eq_some_iff.mp moved with ⟨state, found, moved⟩
    rcases Option.map_eq_some_iff.mp moved with ⟨after, taken, rfl⟩
    exact ⟨config, state, after, there, found, taken, rfl⟩
  · rintro ⟨config, state, after, there, found, taken, rfl⟩
    refine ⟨config, there, Option.bind_eq_some_iff.mpr ⟨state, found, ?_⟩⟩
    rw [taken]
    rfl

variable [DecidableEq Address]

def step (self : Network State Address Content) : Action Event Note -> Option (Network State Address Content)
  | .own node event => if kind.own event then self.move kind configs self.wire node event else none
  | .deliver parcel node note =>
      self.wire[parcel]?.bind fun sent =>
        if configs[node]?.map kind.address = some sent.destination then
          self.move kind configs (self.wire.eraseIdx parcel) node (kind.arrival sent.content sent.source note)
        else none
  | .lose parcel =>
      if parcel < self.wire.length then some { self with wire := self.wire.eraseIdx parcel } else none
  | .duplicate parcel => self.wire[parcel]?.map fun sent => { self with wire := self.wire ++ [sent] }

def run (self : Network State Address Content) (actions : List (Action Event Note)) :
    Option (Network State Address Content) := PartialRun.run (step kind configs) self actions

end Network

/-! ## What one action can do -/

section Runs

variable [DecidableEq Address] {kind : NodeKind Config State Event Note Address Content} {configs : List Config}
  {self next final : Network State Address Content} {action : Action Event Note}

/-- The event is one of the node's own, or the arrival of a packet that the node can get. -/
def Network.Offers (kind : NodeKind Config State Event Note Address Content) (self : Network State Address Content)
    (config : Config) (event : Event) : Prop :=
  kind.own event = true ∨
    Exists fun sent => Exists fun note => sent ∈ self.wire ∧ sent.destination = kind.address config ∧
      event = kind.arrival sent.content sent.source note

/-- The inversion lemma of the network: packets are moved about, or one node takes a step. -/
inductive Change (kind : NodeKind Config State Event Note Address Content) (configs : List Config)
    (self next : Network State Address Content) : Prop where
  | wire (same : next.nodes = self.nodes) (old : forall parcel, parcel ∈ next.wire -> parcel ∈ self.wire)
  | node (index : Nat) (config : Config) (state after : State) (event : Event) (there : configs[index]? = some config)
      (found : self.nodes[index]? = some state) (offers : self.Offers kind config event)
      (taken : kind.step config state event = some after) (moved : next.nodes = self.nodes.set index after)
      (old : forall parcel, parcel ∈ next.wire -> parcel ∈ self.wire ∨ parcel ∈ kind.post config state event)

theorem change_of_step (stepped : self.step kind configs action = some next) : Change kind configs self next := by
  cases action with
  | own index event =>
      rcases Option.ite_none_right_eq_some.mp stepped with ⟨isOwn, moved⟩
      rcases Network.move_eq_some.mp moved with ⟨config, state, after, there, found, taken, rfl⟩
      exact .node index config state after event there found (Or.inl isOwn) taken rfl
        fun parcel member => List.mem_append.mp member
  | deliver place index note =>
      rcases Option.bind_eq_some_iff.mp stepped with ⟨sent, onWire, delivered⟩
      rcases Option.ite_none_right_eq_some.mp delivered with ⟨addressed, moved⟩
      rcases Network.move_eq_some.mp moved with ⟨config, state, after, there, found, taken, rfl⟩
      rw [there, Option.map_some, Option.some.injEq] at addressed
      refine .node index config state after _ there found
        (Or.inr ⟨sent, note, List.mem_of_getElem? onWire, addressed.symm, rfl⟩) taken rfl fun parcel member => ?_
      exact (List.mem_append.mp member).imp_left List.mem_of_mem_eraseIdx
  | lose place =>
      rcases Option.ite_none_right_eq_some.mp stepped with ⟨_, moved⟩
      cases moved
      exact .wire rfl fun parcel member => List.mem_of_mem_eraseIdx member
  | duplicate place =>
      rcases Option.map_eq_some_iff.mp stepped with ⟨sent, onWire, rfl⟩
      refine .wire rfl fun parcel member => ?_
      rcases List.mem_append.mp member with old | copy
      · exact old
      · exact List.mem_singleton.mp copy ▸ List.mem_of_getElem? onWire

/-! ## One node of a network -/

/-- The event of a node in a run: its own, or the arrival of a packet that was on the wire. -/
def Arises (kind : NodeKind Config State Event Note Address Content) (configs : List Config)
    (start : Network State Address Content) (actions : List (Action Event Note)) (config : Config) (event : Event) :
    Prop :=
  Exists fun middle => PartialRun.Passes (Network.step kind configs) start actions middle ∧
    middle.Offers kind config event

/-- The node is where a run of its own leads that arises in the network. -/
def Follows (kind : NodeKind Config State Event Note Address Content) (configs : List Config)
    (start : Network State Address Content) (index : Nat) (config : Config) (given : State)
    (actions : List (Action Event Note)) (network : Network State Address Content) : Prop :=
  forall state, network.nodes[index]? = some state -> Exists fun events =>
    PartialRun.run (kind.step config) given events = some state ∧
    forall event, event ∈ events -> Arises kind configs start actions config event

variable {start : Network State Address Content} {actions : List (Action Event Note)} {index : Nat} {config : Config}
  {given state : State}

theorem Arises.append {event : Event} (arises : Arises kind configs start actions config event)
    (later : List (Action Event Note)) : Arises kind configs start (actions ++ later) config event := by
  rcases arises with ⟨middle, passes, offers⟩
  exact ⟨middle, passes.append later, offers⟩

/-- The node stands still. -/
theorem Follows.stays (follows : Follows kind configs start index config given actions self)
    (same : next.nodes[index]? = self.nodes[index]?) :
    Follows kind configs start index config given (actions ++ [action]) next := by
  intro state found
  rcases follows state (same ▸ found) with ⟨events, ran, arise⟩
  exact ⟨events, ran, fun event member => (arise event member).append [action]⟩

theorem Follows.step (there : configs[index]? = some config)
    (reached : PartialRun.run (Network.step kind configs) start actions = some self)
    (follows : Follows kind configs start index config given actions self)
    (stepped : self.step kind configs action = some next) :
    Follows kind configs start index config given (actions ++ [action]) next := by
  cases change_of_step stepped with
  | wire same _ => exact follows.stays (congrArg (fun nodes => nodes[index]?) same)
  | node moving other old new event otherThere oldFound offers taken moved _ =>
      by_cases same : moving = index
      · subst same
        intro state found
        rw [moved, List.getElem?_set_self (List.getElem?_eq_some_iff.mp oldFound).1, Option.some.injEq] at found
        rw [there, Option.some.injEq] at otherThere
        subst found otherThere
        rcases follows old oldFound with ⟨events, ran, arise⟩
        refine ⟨events ++ [event], PartialRun.run_append_eq_some.mpr
          ⟨old, ran, PartialRun.run_cons_eq_some.mpr ⟨new, taken, rfl⟩⟩, fun item member => ?_⟩
        rcases List.mem_append.mp member with before | last
        · exact (arise item before).append [action]
        · rw [List.mem_singleton.mp last]
          exact ⟨self, (PartialRun.passes_final reached).append [action], offers⟩
      · refine follows.stays ?_
        rw [moved, List.getElem?_set_ne same]

/-- What a node does in a network is a run of the node alone. -/
theorem run_node (there : configs[index]? = some config) (initially : start.nodes[index]? = some given)
    (ran : start.run kind configs actions = some final) (found : final.nodes[index]? = some state) :
    Exists fun events => PartialRun.run (kind.step config) given events = some state ∧
      forall event, event ∈ events -> Arises kind configs start actions config event := by
  have first : Follows kind configs start index config given [] start := by
    intro state same
    rw [initially, Option.some.injEq] at same
    exact ⟨[], same ▸ rfl, fun _ member => absurd member List.not_mem_nil⟩
  have follows : Follows kind configs start index config given actions final :=
    PartialRun.run_passing (fun _ _ _ _ reached follows stepped => Follows.step there reached follows stepped) first ran
  exact follows state found

end Runs

/-! ## Traffic -/

variable {kind : NodeKind Config State Event Note Address Content} {configs : List Config}
  {self next final start : Network State Address Content} {action : Action Event Note}
  {actions : List (Action Event Note)} {index : Nat} {asks : Event -> Bool}

/-- The packets that a node sends when the event happens to it. -/
def Network.sent (kind : NodeKind Config State Event Note Address Content) (configs : List Config)
    (self : Network State Address Content) (node : Nat) (event : Event) : List (Content × Address) :=
  match configs[node]?, self.nodes[node]? with
  | some config, some state => kind.sends config state event
  | _, _ => []

/-- How many packets answer others. -/
def Network.answers (kind : NodeKind Config State Event Note Address Content) (configs : List Config)
    (self : Network State Address Content) : Action Event Note -> Nat
  | .deliver parcel node note =>
      match self.wire[parcel]? with
      | some sent => (self.sent kind configs node (kind.arrival sent.content sent.source note)).length
      | none => 0
  | _ => 0

/-- No node answers the packet. -/
def Final (kind : NodeKind Config State Event Note Address Content) (configs : List Config) (content : Content) : Prop :=
  forall config, config ∈ configs -> forall state source note,
    kind.sends config state (kind.arrival content source note) = []

/-- Actions that bring packets on the wire which answer nothing. -/
def Action.fresh (asks : Event -> Bool) : Action Event Note -> Bool
  | .own _ event => asks event
  | .deliver _ _ _ => false
  | .lose _ => false
  | .duplicate _ => true

/-- Each node asks one packet at a time, and answers with one at most, which is final. -/
structure Terse (kind : NodeKind Config State Event Note Address Content) (configs : List Config)
    (asks : Event -> Bool) : Prop where
  asked : forall config, config ∈ configs -> forall state event, kind.own event = true ->
    (kind.sends config state event).length ≤ if asks event then 1 else 0
  answered : forall config, config ∈ configs -> forall state content source note,
    (kind.sends config state (kind.arrival content source note)).length ≤ 1
  final : forall config, config ∈ configs -> forall state content source note packet,
    packet ∈ kind.sends config state (kind.arrival content source note) -> Final kind configs packet.1

open Classical in
/-- The packets on the wire that may be answered. -/
noncomputable def Network.pending (kind : NodeKind Config State Event Note Address Content) (configs : List Config)
    (wire : List (Parcel Address Content)) : Nat :=
  wire.countP fun parcel => ¬Final kind configs parcel.content

theorem Network.pending_append (first second : List (Parcel Address Content)) :
    pending kind configs (first ++ second) = pending kind configs first + pending kind configs second :=
  List.countP_append

theorem Network.pending_le_length (kind : NodeKind Config State Event Note Address Content) (configs : List Config)
    (wire : List (Parcel Address Content)) : pending kind configs wire ≤ wire.length := List.countP_le_length

theorem Network.pending_of_final {wire : List (Parcel Address Content)}
    (final : forall parcel, parcel ∈ wire -> Final kind configs parcel.content) : pending kind configs wire = 0 := by
  apply List.countP_eq_zero.mpr
  intro parcel member
  simp only [final parcel member, not_true_eq_false, decide_false, Bool.false_eq_true, not_false_eq_true]

/-- A packet is taken off the wire. -/
theorem Network.pending_eraseIdx {wire : List (Parcel Address Content)} {place : Nat} {parcel : Parcel Address Content}
    (found : wire[place]? = some parcel) :
    pending kind configs wire = pending kind configs [parcel] + pending kind configs (wire.eraseIdx place) := by
  rcases List.getElem?_eq_some_iff.mp found with ⟨inside, rfl⟩
  rw [<- pending_append]
  exact (List.getElem_cons_eraseIdx_perm inside).symm.countP_eq _

theorem Network.sent_of {config : Config} {state : State} {index : Nat} (there : configs[index]? = some config)
    (found : self.nodes[index]? = some state) (event : Event) :
    self.sent kind configs index event = kind.sends config state event := by
  rw [sent, there, found]

variable [DecidableEq Address]

/-- What an action answers, it takes off the wire. -/
theorem Terse.pays (terse : Terse kind configs asks) (stepped : self.step kind configs action = some next) :
    self.answers kind configs action + Network.pending kind configs next.wire ≤
      Network.pending kind configs self.wire + if action.fresh asks then 1 else 0 := by
  cases action with
  | own index event =>
      rcases Option.ite_none_right_eq_some.mp stepped with ⟨isOwn, moved⟩
      rcases Network.move_eq_some.mp moved with ⟨config, state, after, there, found, taken, rfl⟩
      have few : (kind.sends config state event).length ≤
          if (Action.own index event : Action Event Note).fresh asks then 1 else 0 :=
        terse.asked config (List.mem_of_getElem? there) state event isOwn
      have posted := Network.pending_le_length kind configs (kind.post config state event)
      rw [NodeKind.post, List.length_map] at posted
      dsimp only [Network.answers]
      rw [Network.pending_append, NodeKind.post]
      omega
  | deliver place index note =>
      rcases Option.bind_eq_some_iff.mp stepped with ⟨sent, onWire, delivered⟩
      rcases Option.ite_none_right_eq_some.mp delivered with ⟨addressed, moved⟩
      rcases Network.move_eq_some.mp moved with ⟨config, state, after, there, found, taken, rfl⟩
      have member := List.mem_of_getElem? there
      have nothing : Network.pending kind configs
          (kind.post config state (kind.arrival sent.content sent.source note)) = 0 := by
        apply Network.pending_of_final
        intro parcel posted
        rcases List.mem_map.mp posted with ⟨packet, answer, rfl⟩
        exact terse.final config member state _ _ note packet answer
      have answers : self.answers kind configs (.deliver place index note) ≤ Network.pending kind configs [sent] := by
        dsimp only [Network.answers]
        rw [onWire]
        dsimp only
        rw [Network.sent_of there found]
        by_cases final : Final kind configs sent.content
        · rw [final config member state sent.source note]
          exact Nat.zero_le _
        · have one : Network.pending kind configs [sent] = 1 := by
            simp only [Network.pending, List.countP_singleton, final, not_false_eq_true, decide_true, if_true]
          rw [one]
          exact terse.answered config member state _ _ note
      dsimp only [Action.fresh]
      rw [Network.pending_append, nothing, Network.pending_eraseIdx onWire]
      simp only [Bool.false_eq_true, if_false]
      omega
  | lose place =>
      rcases Option.ite_none_right_eq_some.mp stepped with ⟨inside, moved⟩
      cases moved
      dsimp only [Network.answers, Action.fresh]
      rw [Network.pending_eraseIdx (List.getElem?_eq_getElem inside)]
      omega
  | duplicate place =>
      rcases Option.map_eq_some_iff.mp stepped with ⟨sent, onWire, rfl⟩
      have one := Network.pending_le_length kind configs [sent]
      rw [List.length_singleton] at one
      dsimp only [Network.answers, Action.fresh]
      rw [Network.pending_append]
      simp only [if_true]
      omega

/-- If nobody answers an answer, there are at most as many answers as there are packets
that answer nothing, in every schedule. -/
theorem traffic_le (terse : Terse kind configs asks) (ran : start.run kind configs actions = some final) :
    PartialRun.cost (Network.step kind configs) (Network.answers kind configs) start actions +
      Network.pending kind configs final.wire ≤
      Network.pending kind configs start.wire + actions.countP (Action.fresh asks) := by
  have kept : forall (state : Network State Address Content) (action : Action Event Note) next, True ->
      Network.step kind configs state action = some next -> True := fun _ _ _ _ _ => trivial
  have pays : forall (state : Network State Address Content) (action : Action Event Note) next, True ->
      Network.step kind configs state action = some next ->
      state.answers kind configs action + Network.pending kind configs next.wire ≤
        Network.pending kind configs state.wire + if action.fresh asks then 1 else 0 :=
    fun _ _ _ _ stepped => terse.pays stepped
  exact PartialRun.cost_le kept pays trivial ran

end PacketNetwork
