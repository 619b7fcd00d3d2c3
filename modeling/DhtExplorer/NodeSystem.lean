import DhtExplorer.Receive
import DhtExplorer.RouterConcurrency
import DhtExplorer.SearchShape

namespace DhtExplorer

/-!
# A whole node

Datagrams, calls, searches and their tasks of one node run at the same time over one
routing table and one messenger.  A task builds its query, waits for the call, tells
the routing table how it ended, and leaves its result to the loop of its search.
Each of these is one event, so a list of events is an interleaving.

A call on the routing table is one event here; what becomes of such calls when they
overlap is studied apart.  The tasks of a sweep make queries like those of a search,
but the table does not hear of them.
-/

/-- What a task waits for. -/
inductive Purpose where
  | bootstrap
  | sendFind (search : Nat) (node : NodeInfo)
  | sample (node : NodeInfo)
deriving DecidableEq, Repr

/-- A task with the number of its call, and how the call ended once the table has
heard of it. -/
structure Errand where
  purpose : Purpose
  call : Nat
  outcome : Option Outcome

structure RunningSearch where
  config : SearchConfig
  search : Search config.target

structure RunningNode (Store : Type) where
  node : NodeState Store
  searches : List RunningSearch
  errands : List Errand

inductive NodeEvent where
  | datagram (datagram : Datagram)
  | messenger (action : ServiceAction)
  | bootstrap (addr : SocketAddr)
  | sample (node : NodeInfo) (again : Bool)
  | find (target : U160) (findPeers : Bool) (chance : Chance)
  | findStartingAt (target : U160) (findPeers : Bool) (chance : Chance) (nodes : List NodeInfo)
  | begin (search task : Nat)
  | conclude (errand : Nat)
  | takeStart (search task : Nat)
  | take (search task errand : Nat)

/-- `from_hex("000007ffffffffffffffffffffffffffffffffff")`. -/
def NEXT_HIGHEST : U160 := .new 0x000007ffffffffffffffffffffffffff 0xffffffff

/-- The response for a task that goes on with its query: every error is one. -/
def Outcome.response : Outcome -> Option Response
  | received (.ok response) => some response
  | _ => none

theorem Outcome.response_eq_some {outcome : Outcome} {response : Response} :
    outcome.response = some response <-> outcome = .received (.ok response) := by
  unfold Outcome.response
  split
  · rw [Option.some.injEq, Outcome.received.injEq, Except.ok.injEq]
  · rename_i other
    exact iff_of_false (by simp) (other response)

/-- What the task tells the routing table. -/
def Purpose.tell (router : Router) (outcome : Outcome) : Purpose -> Option Router
  | bootstrap =>
      match outcome.response with
      | some response => router.add response.base.origin.toNodeInfo
      | none => some router
  | sendFind _ node =>
      match outcome.response with
      | some response => router.add response.base.origin.toNodeInfo
      | none => router.banId node.id
  | sample _ => some router

/-- A handler is there unless the node is read only. -/
def Node.new (server : Server) : Node := ⟨server, ⟨server.bencode, !server.readOnly⟩⟩

namespace RunningNode

variable {Store : Type} [PeerTree Store]

def new (router : Router) (peers : Store) : RunningNode Store := ⟨⟨⟨router, 0, peers⟩, .initial⟩, [], []⟩

/-- How the call ended, if it has returned. -/
def outcomeOf (self : RunningNode Store) (call : Nat) : Option Outcome :=
  self.node.messenger.calls[call]?.bind fun call =>
    match call.phase with
    | .returned outcome => some outcome
    | _ => none

/-- The tasks of a search for one node that have made their call. -/
def begun (self : RunningNode Store) (search : Nat) (node : NodeInfo) : Nat :=
  self.errands.countP fun errand => errand.purpose = .sendFind search node

/-- A task builds a query and hands it to the messenger. -/
def ask (config : Node) (self : RunningNode Store) (purpose : Purpose) (receiver : Receiver) (method : QueryMethod) :
    Option (RunningNode Store) :=
  (config.step self.node (.query receiver method)).map fun node =>
    { self with node := node, errands := self.errands ++ [⟨purpose, self.node.messenger.calls.length, none⟩] }

/-- The loop of a search takes the result of one of its tasks. -/
def advance (self : RunningNode Store) (index : Nat) (running : RunningSearch) (completion : Completion) :
    Option (RunningNode Store) :=
  (Search.step running.config running.search completion).map fun search =>
    { self with searches := self.searches.set index ⟨running.config, search⟩ }

def step (config : Node) (self : RunningNode Store) : NodeEvent -> Option (RunningNode Store)
  | .datagram datagram => (config.recv self.node datagram).next.map fun node => { self with node := node }
  | .messenger (.receive _) => none
  | .messenger action => (config.step self.node (.messenger action)).map fun node => { self with node := node }
  | .bootstrap addr => self.ask config .bootstrap (.addr addr) .ping
  | .sample node again =>
      let target := node.id.or NEXT_HIGHEST
      self.ask config (.sample node) (.node node) (if again then .findNode target else .sampleInfohashes target)
  | .find target findPeers chance =>
      (self.node.server.router.lookup target).map fun nodes =>
        { self with
          searches := self.searches ++
            [⟨⟨config.server.crypto, chance, target, findPeers⟩, Search.start target nodes⟩] }
  | .findStartingAt target findPeers chance nodes =>
      some
        { self with
          searches := self.searches ++
            [⟨⟨config.server.crypto, chance, target, findPeers⟩, Search.start target nodes⟩] }
  | .begin index task =>
      self.searches[index]?.bind fun running =>
        match running.search.tasks[task]? with
        | some (.sendFind node) =>
            if self.begun index node < running.search.tasks.count (.sendFind node) then
              self.ask config (.sendFind index node) (.node node) running.config.method
            else none
        | _ => none
  | .conclude index =>
      self.errands[index]?.bind fun errand =>
        match errand.outcome, self.outcomeOf errand.call with
        | none, some outcome =>
            (errand.purpose.tell self.node.server.router outcome).map fun router =>
              { self with
                node := { self.node with server := { self.node.server with router := router } }
                errands := self.errands.set index { errand with outcome := some outcome } }
        | _, _ => none
  | .takeStart index task =>
      self.searches[index]?.bind fun running =>
        match running.search.tasks[task]? with
        | some (.start _) => self.advance index running ⟨task, none⟩
        | _ => none
  | .take index task errand =>
      self.searches[index]?.bind fun running =>
        self.errands[errand]?.bind fun done =>
          match running.search.tasks[task]?, done.purpose, done.outcome with
          | some (.sendFind node), .sendFind search asked, some outcome =>
              if search = index ∧ asked = node then
                { self with errands := self.errands.eraseIdx errand }.advance index running ⟨task, outcome.response⟩
              else none
          | _, _, _ => none

def run (config : Node) (self : RunningNode Store) (events : List NodeEvent) : Option (RunningNode Store) :=
  PartialRun.run (step config) self events

omit [PeerTree Store] in
theorem outcomeOf_eq_some {self : RunningNode Store} {call : Nat} {outcome : Outcome} :
    self.outcomeOf call = some outcome <->
      Exists fun made => self.node.messenger.calls[call]? = some made ∧ made.phase = .returned outcome := by
  rw [outcomeOf, Option.bind_eq_some_iff]
  constructor
  · rintro ⟨made, found, returned⟩
    refine ⟨made, found, ?_⟩
    split at returned
    · rename_i finished phase
      cases returned
      exact phase
    · cases returned
  · rintro ⟨made, found, phase⟩
    exact ⟨made, found, by rw [phase]⟩

/-! ## The forms of an event -/

/-- The errand of a search asks the node what the search asks. -/
def Fits (self : RunningNode Store) (receiver : Receiver) (method : QueryMethod) (purpose : Purpose) : Prop :=
  forall search node, purpose = .sendFind search node -> Exists fun running =>
    self.searches[search]? = some running ∧ receiver = .node node ∧ method = running.config.method

/-- The loop is handed the nodes that the search starts from, or what a finished
errand brought for one of its nodes. -/
def Brings (self : RunningNode Store) (index : Nat) (running : RunningSearch) (completion : Completion) : Prop :=
  (Exists fun nodes => running.search.tasks[completion.task]? = some (.start nodes)) ∨
    Exists fun node => Exists fun done => Exists fun outcome =>
      running.search.tasks[completion.task]? = some (.sendFind node) ∧ done ∈ self.errands ∧
      done.purpose = .sendFind index node ∧ done.outcome = some outcome ∧ completion.outcome = outcome.response

inductive Moved (config : Node) (self : RunningNode Store) : NodeEvent -> RunningNode Store -> Prop where
  | datagram {datagram : Datagram} {node : NodeState Store}
      (received : (config.recv self.node datagram).next = some node) :
      Moved config self (.datagram datagram) { self with node := node }
  | messenger {action : ServiceAction} {node : NodeState Store} (notReceived : forall result, action ≠ .receive result)
      (stepped : config.step self.node (.messenger action) = some node) :
      Moved config self (.messenger action) { self with node := node }
  | asked {event : NodeEvent} {purpose : Purpose} {receiver : Receiver} {method : QueryMethod} {node : NodeState Store}
      (fits : self.Fits receiver method purpose) (stepped : config.step self.node (.query receiver method) = some node) :
      Moved config self event
        { self with node := node, errands := self.errands ++ [⟨purpose, self.node.messenger.calls.length, none⟩] }
  | opened {event : NodeEvent} (search : SearchConfig) (nodes : List NodeInfo) :
      Moved config self event
        { self with searches := self.searches ++ [⟨search, Search.start search.target nodes⟩] }
  | concluded {index : Nat} {errand : Errand} {outcome : Outcome} {router : Router}
      (found : self.errands[index]? = some errand) (waiting : errand.outcome = none)
      (returned : self.outcomeOf errand.call = some outcome)
      (told : errand.purpose.tell self.node.server.router outcome = some router) :
      Moved config self (.conclude index)
        { self with
          node := { self.node with server := { self.node.server with router := router } }
          errands := self.errands.set index { errand with outcome := some outcome } }
  | advanced {event : NodeEvent} {index : Nat} {running : RunningSearch} {completion : Completion}
      {search : Search running.config.target} {errands : List Errand} (found : self.searches[index]? = some running)
      (brings : self.Brings index running completion) (fewer : errands.Sublist self.errands)
      (stepped : Search.step running.config running.search completion = some search) :
      Moved config self event
        { self with searches := self.searches.set index ⟨running.config, search⟩, errands := errands }

theorem moved_of_ask {config : Node} {self next : RunningNode Store} {event : NodeEvent} {purpose : Purpose}
    {receiver : Receiver} {method : QueryMethod} (fits : self.Fits receiver method purpose)
    (taken : self.ask config purpose receiver method = some next) : Moved config self event next := by
  rcases Option.map_eq_some_iff.mp taken with ⟨node, stepped, rfl⟩
  exact .asked fits stepped

theorem moved_of_step {config : Node} {self next : RunningNode Store} {event : NodeEvent}
    (taken : self.step config event = some next) : Moved config self event next := by
  have unfit : forall {receiver method purpose}, (forall search node, purpose ≠ .sendFind search node) ->
      self.Fits receiver method purpose := fun other search node same => absurd same (other search node)
  cases event with
  | datagram datagram =>
      rcases Option.map_eq_some_iff.mp taken with ⟨node, received, rfl⟩
      exact .datagram received
  | messenger action =>
      cases action with
      | receive _ | start _ => cases taken
      | _ =>
          rcases Option.map_eq_some_iff.mp taken with ⟨node, stepped, rfl⟩
          exact .messenger (by simp) stepped
  | bootstrap addr => exact moved_of_ask (unfit (by simp)) taken
  | sample node again => exact moved_of_ask (unfit (by simp)) taken
  | find target findPeers chance =>
      rcases Option.map_eq_some_iff.mp taken with ⟨nodes, _, rfl⟩
      exact .opened _ nodes
  | findStartingAt target findPeers chance nodes =>
      cases taken
      exact .opened _ nodes
  | begin index task =>
      rcases Option.bind_eq_some_iff.mp taken with ⟨running, found, taken⟩
      split at taken
      · split at taken
        · refine moved_of_ask ?_ taken
          intro search node same
          cases same
          exact ⟨running, found, rfl, rfl⟩
        · cases taken
      · cases taken
  | conclude index =>
      rcases Option.bind_eq_some_iff.mp taken with ⟨errand, found, taken⟩
      split at taken
      · rename_i waiting returned
        rcases Option.map_eq_some_iff.mp taken with ⟨router, told, rfl⟩
        exact .concluded found waiting returned told
      · cases taken
  | takeStart index task =>
      rcases Option.bind_eq_some_iff.mp taken with ⟨running, found, taken⟩
      split at taken
      · rename_i nodes there
        rcases Option.map_eq_some_iff.mp taken with ⟨search, stepped, rfl⟩
        exact .advanced found (Or.inl ⟨nodes, there⟩) (List.Sublist.refl _) stepped
      · cases taken
  | take index task errand =>
      rcases Option.bind_eq_some_iff.mp taken with ⟨running, found, taken⟩
      rcases Option.bind_eq_some_iff.mp taken with ⟨done, member, taken⟩
      split at taken
      · rename_i node search asked outcome there purpose finished
        split at taken
        · rename_i own
          rcases own with ⟨rfl, rfl⟩
          rcases Option.map_eq_some_iff.mp taken with ⟨next, stepped, rfl⟩
          exact .advanced found
            (Or.inr ⟨asked, done, outcome, there, List.mem_of_getElem? member, purpose, finished, rfl⟩)
            (List.eraseIdx_sublist _ _) stepped
        · cases taken
      · cases taken

end RunningNode
end DhtExplorer
