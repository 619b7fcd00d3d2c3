import DhtExplorer.NodeContacts

namespace DhtExplorer

/-!
# The searches of a node

Searches were studied alone, against a network that answers what it likes.  In a node
several of them run at once, between datagrams, timeouts and each other's calls.  Each
is still a run of the search loop: its completions are the ends of calls that the node
made to the nodes of the search, and every response among them came in a datagram.
-/

namespace Search

variable {config : SearchConfig} {search : Search config.target} {nodes : List NodeInfo} {completions : List Completion}

theorem run_concat {next : Search config.target} {completion : Completion}
    (ran : Search.run config nodes completions = some search) (stepped : step config search completion = some next) :
    Search.run config nodes (completions ++ [completion]) = some next :=
  PartialRun.run_append_eq_some.mpr ⟨search, ran, PartialRun.run_cons_eq_some.mpr ⟨next, stepped, rfl⟩⟩

/-- What ended in a longer run ended before or with the last completion. -/
theorem ended_concat {last : Completion} (ran : Search.run config nodes completions = some search) {node : NodeInfo}
    {outcome : Option Response} (ended : Ended config nodes (completions ++ [last]) node outcome) :
    Ended config nodes completions node outcome ∨
      (last.outcome = outcome ∧ search.tasks[last.task]? = some (.sendFind node)) := by
  rcases ended with ⟨before, task, after, middle, split, reached, own⟩
  rcases List.eq_nil_or_concat after with rfl | ⟨rest, final, rfl⟩
  · rcases List.append_inj' split rfl with ⟨rfl, same⟩
    rw [ran, Option.some.injEq] at reached
    rw [List.cons.injEq] at same
    rcases same with ⟨rfl, _⟩
    exact Or.inr ⟨rfl, reached ▸ own⟩
  · rw [List.concat_eq_append, <- List.cons_append, <- List.append_assoc] at split
    rcases List.append_inj' split rfl with ⟨rfl, _⟩
    exact Or.inl ⟨before, task, rest, middle, rfl, reached, own⟩

end Search

/-- A call was made for the query that the search sends to the node, and ended so. -/
def ServiceState.Queried (state : ServiceState) (config : SearchConfig) (node : NodeInfo) (outcome : Option Response) :
    Prop :=
  Exists fun index : Nat => Exists fun call => Exists fun result : Outcome => state.calls[index]? = some call ∧
    (Call.query call).base.destination = .node node ∧ (Call.query call).method = config.method ∧
    Call.phase call = .returned result ∧ result.response = outcome

theorem Stepped.keepsQueried {service : Service} {state next : ServiceState} {action : ServiceAction}
    (stepped : Stepped service state action next) {config : SearchConfig} {node : NodeInfo}
    {outcome : Option Response} (queried : state.Queried config node outcome) : next.Queried config node outcome := by
  rcases queried with ⟨index, call, result, found, destination, method, returned, response⟩
  rcases stepped.returned found returned with ⟨later, laterFound, laterReturned⟩
  have same : later.query = call.query := (stepped.asks ⟨call, found, rfl⟩).unique ⟨later, laterFound, rfl⟩ |>.symm
  exact ⟨index, later, result, laterFound, same ▸ destination, same ▸ method, laterReturned, response⟩

variable {Store : Type}

namespace RunningNode

/-- The errand belongs to a call with the query of its search. -/
structure Backs (state : RunningNode Store) (errand : Errand) : Prop where
  asks : Exists fun query => state.node.messenger.Asks errand.call query ∧
    state.Fits query.base.destination query.method errand.purpose
  ended : forall outcome, errand.outcome = some outcome -> state.outcomeOf errand.call = some outcome

/-- The search is a run of its loop.  Its queries ended as calls of the node did. -/
def Performs (state : RunningNode Store) (running : RunningSearch) : Prop :=
  Exists fun nodes => Exists fun completions =>
    Search.run running.config nodes completions = some running.search ∧
    forall node outcome, Search.Ended running.config nodes completions node outcome ->
      state.node.messenger.Queried running.config node outcome

structure Orderly (state : RunningNode Store) : Prop where
  errands : forall errand, errand ∈ state.errands -> state.Backs errand
  searches : forall (index : Nat) (running : RunningSearch), state.searches[index]? = some running ->
    state.Performs running

variable {config : Node} {state next : RunningNode Store} {event : NodeEvent}

/-- The searches are there, with their aims. -/
def Retains (state next : RunningNode Store) : Prop :=
  forall (index : Nat) (running : RunningSearch), state.searches[index]? = some running -> Exists fun later =>
    next.searches[index]? = some later ∧ later.config = running.config

theorem Fits.retained {receiver : Receiver} {method : QueryMethod} {purpose : Purpose}
    (fits : state.Fits receiver method purpose) (retains : state.Retains next) : next.Fits receiver method purpose := by
  intro search node same
  rcases fits search node same with ⟨running, found, destination, asked⟩
  rcases retains search running found with ⟨later, laterFound, sameConfig⟩
  exact ⟨later, laterFound, destination, by rw [sameConfig]; exact asked⟩

/-- The calls that were made and how they ended are kept. -/
structure KeepsCalls (state next : RunningNode Store) : Prop where
  asks : forall index query, state.node.messenger.Asks index query -> next.node.messenger.Asks index query
  outcome : forall index outcome, state.outcomeOf index = some outcome -> next.outcomeOf index = some outcome
  queried : forall config node outcome, state.node.messenger.Queried config node outcome ->
    next.node.messenger.Queried config node outcome

theorem keepsCalls_of_same (same : next.node.messenger = state.node.messenger) : state.KeepsCalls next where
  asks := fun _ _ asked => same ▸ asked
  outcome := fun _ _ finished => by rwa [outcomeOf, same]
  queried := fun _ _ _ queried => same ▸ queried

theorem keepsCalls_of_nodeStep {action : NodeAction} (taken : config.step state.node action = some next.node) :
    state.KeepsCalls next := by
  rcases stepped_of_nodeStep taken with ⟨_, _, inner, stepped, _⟩
  refine ⟨fun _ _ => stepped.asks, fun index outcome finished => ?_, fun _ _ _ => stepped.keepsQueried⟩
  rcases outcomeOf_eq_some.mp finished with ⟨call, found, returned⟩
  exact outcomeOf_eq_some.mpr (stepped.returned found returned)

theorem Backs.kept {errand : Errand} (backs : state.Backs errand) (keeps : state.KeepsCalls next)
    (retains : state.Retains next) : next.Backs errand := by
  rcases backs with ⟨⟨query, asked, fits⟩, ended⟩
  refine ⟨⟨query, keeps.asks _ _ asked, fits.retained retains⟩, fun outcome finished => ?_⟩
  exact keeps.outcome _ _ (ended outcome finished)

theorem Performs.kept {running : RunningSearch} (performs : state.Performs running) (keeps : state.KeepsCalls next) :
    next.Performs running := by
  rcases performs with ⟨nodes, completions, ran, queried⟩
  exact ⟨nodes, completions, ran, fun node outcome ended => keeps.queried _ _ _ (queried node outcome ended)⟩

/-- Nothing but the calls changes. -/
theorem Orderly.kept (orderly : state.Orderly) (keeps : state.KeepsCalls next)
    (sameSearches : next.searches = state.searches) (sameErrands : next.errands = state.errands) : next.Orderly where
  errands := by
    intro errand member
    rw [sameErrands] at member
    refine (orderly.errands errand member).kept keeps fun index running found => ⟨running, ?_, rfl⟩
    rwa [sameSearches]
  searches := by
    intro index running found
    rw [sameSearches] at found
    exact (orderly.searches index running found).kept keeps

/-- A task has made its call. -/
theorem Orderly.asked (orderly : state.Orderly) {purpose : Purpose} {receiver : Receiver} {method : QueryMethod}
    {node : NodeState Store} (fits : state.Fits receiver method purpose)
    (taken : config.step state.node (.query receiver method) = some node) :
    Orderly { state with
      node := node, errands := state.errands ++ [⟨purpose, state.node.messenger.calls.length, none⟩] } := by
  have keeps : state.KeepsCalls { state with
      node := node, errands := state.errands ++ [⟨purpose, state.node.messenger.calls.length, none⟩] } :=
    keepsCalls_of_nodeStep taken
  refine ⟨fun errand member => ?_, fun index running found => (orderly.searches index running found).kept keeps⟩
  rcases List.mem_append.mp member with old | new
  · exact (orderly.errands errand old).kept keeps fun index running found => ⟨running, found, rfl⟩
  · cases List.mem_singleton.mp new
    cases taken
    refine ⟨⟨_, ⟨_, List.getElem?_concat_length, rfl⟩, fits⟩, fun outcome finished => ?_⟩
    cases finished

/-- The end of a call is noted. -/
theorem Orderly.concluded (orderly : state.Orderly) {index : Nat} {errand : Errand} {outcome : Outcome}
    {server : ServerState Store}
    (found : state.errands[index]? = some errand) (returned : state.outcomeOf errand.call = some outcome) :
    Orderly { state with
      node := { state.node with server := server }
      errands := state.errands.set index { errand with outcome := some outcome } } := by
  have keeps : state.KeepsCalls { state with
      node := { state.node with server := server }
      errands := state.errands.set index { errand with outcome := some outcome } } := keepsCalls_of_same rfl
  have retains : state.Retains { state with
      node := { state.node with server := server }
      errands := state.errands.set index { errand with outcome := some outcome } } :=
    fun index running found => ⟨running, found, rfl⟩
  refine ⟨fun other member => ?_, fun index running found => (orderly.searches index running found).kept keeps⟩
  rcases List.mem_or_eq_of_mem_set member with old | rfl
  · exact (orderly.errands other old).kept keeps retains
  · have backs := (orderly.errands errand (List.mem_of_getElem? found)).kept keeps retains
    refine ⟨backs.asks, fun other same => ?_⟩
    cases same
    exact keeps.outcome _ _ returned

/-- The loop of a search has taken a result. -/
theorem Orderly.advanced (orderly : state.Orderly) {index : Nat} {running : RunningSearch} {completion : Completion}
    {search : Search running.config.target} {errands : List Errand} (found : state.searches[index]? = some running)
    (brings : state.Brings index running completion) (fewer : errands.Sublist state.errands)
    (stepped : Search.step running.config running.search completion = some search) :
    Orderly { state with searches := state.searches.set index ⟨running.config, search⟩, errands := errands } := by
  have keeps : state.KeepsCalls
      { state with searches := state.searches.set index ⟨running.config, search⟩, errands := errands } :=
    keepsCalls_of_same rfl
  have retains : state.Retains
      { state with searches := state.searches.set index ⟨running.config, search⟩, errands := errands } := by
    intro other later laterFound
    by_cases same : index = other
    · subst same
      rw [found, Option.some.injEq] at laterFound
      subst laterFound
      exact ⟨_, List.getElem?_set_self (List.getElem?_eq_some_iff.mp found).1, rfl⟩
    · exact ⟨later, by rw [List.getElem?_set_ne same]; exact laterFound, rfl⟩
  refine ⟨fun errand member => (orderly.errands errand (fewer.mem member)).kept keeps retains,
    fun other later laterFound => ?_⟩
  rcases VecOps.getElem?_set_cases laterFound with ⟨rfl, rfl⟩ | ⟨_, old⟩
  · rcases orderly.searches index running found with ⟨nodes, completions, ran, queried⟩
    refine ⟨nodes, completions ++ [completion], Search.run_concat ran stepped, fun node outcome ended => ?_⟩
    rcases Search.ended_concat ran ended with before | ⟨rfl, own⟩
    · exact queried node outcome before
    · rcases brings with ⟨_, start⟩ | ⟨asked, done, result, there, member, purpose, finished, response⟩
      · rw [own] at start
        cases start
      · rw [own] at there
        cases there
        rcases orderly.errands done member with ⟨⟨query, ⟨call, callFound, sameQuery⟩, fits⟩, ended⟩
        rcases fits index node purpose with ⟨same, sameFound, destination, method⟩
        rw [found, Option.some.injEq] at sameFound
        subst sameFound
        rcases outcomeOf_eq_some.mp (ended result finished) with ⟨made, madeFound, returned⟩
        rw [callFound, Option.some.injEq] at madeFound
        subst madeFound
        subst sameQuery
        exact ⟨done.call, call, result, callFound, destination, method, returned, response.symm⟩
  · exact (orderly.searches other later old).kept keeps

variable [PeerTree Store]

theorem keepsCalls_of_recv {datagram : Datagram} (received : (config.recv state.node datagram).next = some next.node) :
    state.KeepsCalls next := by
  rcases Node.recv_next received with same | ⟨_, server, _, _, _, _, same⟩ | ⟨_, _, taken⟩
  · exact keepsCalls_of_same (congrArg NodeState.messenger same)
  · refine keepsCalls_of_same ?_
    rw [same]
  · exact keepsCalls_of_nodeStep taken

theorem Orderly.moved (orderly : state.Orderly) (moved : state.Moved config event next) : next.Orderly := by
  cases moved with
  | datagram received => exact orderly.kept (keepsCalls_of_recv received) rfl rfl
  | messenger _ taken => exact orderly.kept (keepsCalls_of_nodeStep taken) rfl rfl
  | asked fits taken => exact orderly.asked fits taken
  | opened search nodes =>
      have keeps : state.KeepsCalls
          { state with searches := state.searches ++ [⟨search, Search.start search.target nodes⟩] } :=
        keepsCalls_of_same rfl
      refine ⟨fun errand member => ?_, fun index running found => ?_⟩
      · refine (orderly.errands errand member).kept keeps fun index running found => ⟨running, ?_, rfl⟩
        exact VecOps.getElem?_concat_of_some found _
      · rcases VecOps.getElem?_concat_cases found with old | ⟨_, rfl⟩
        · exact (orderly.searches index running old).kept keeps
        · refine ⟨nodes, [], rfl, ?_⟩
          rintro node outcome ⟨before, task, after, middle, split, _⟩
          cases before <;> cases split
  | concluded found _ returned _ => exact orderly.concluded found returned
  | advanced found brings fewer stepped => exact orderly.advanced found brings fewer stepped

/-- The run lemma. -/
theorem Orderly.run {server : Server} {router : Router} {peers : Store} {events : List NodeEvent}
    {final : RunningNode Store} (ran : RunningNode.run (Node.new server) (.new router peers) events = some final) :
    final.Orderly := by
  have start : (RunningNode.new router peers).Orderly :=
    ⟨fun _ member => absurd member List.not_mem_nil, fun _ _ found => by cases found⟩
  exact PartialRun.run_invariant (fun _ _ _ orderly taken => orderly.moved (moved_of_step taken)) start ran

end RunningNode

variable [PeerTree Store]

/-- In every run of a node, each of its searches is a run of the search loop alone.
Whatever ended in it was a query of the node to that node, with the method of the
search, and every response to it came in a datagram from the address it is known by. -/
theorem node_searches_run (server : Server) (router : Router) (reachable : router.Reachable) (peers : Store)
    (arrivals : List Arrival) (stores : server.Stores arrivals peers) (events : List NodeEvent) (final : RunningNode Store)
    (ran : RunningNode.run (Node.new server) (.new router peers) events = some final) (index : Nat)
    (running : RunningSearch) (found : final.searches[index]? = some running) :
    Exists fun nodes => Exists fun completions =>
      Search.run running.config nodes completions = some running.search ∧
      forall node outcome, Search.Ended running.config nodes completions node outcome ->
        final.node.messenger.Queried running.config node outcome ∧
        forall response, outcome = some response -> Exists fun datagram => NodeEvent.datagram datagram ∈ events ∧
          Message.receive server.bencode datagram.bytes datagram.source = .ok (.response response) ∧
          response.base.origin.toNodeInfo.addr = datagram.source := by
  have sound := RunningNode.Sound.run reachable.sound ⟨arrivals, stores⟩ ran
  rcases (RunningNode.Orderly.run ran).searches index running found with ⟨nodes, completions, performed, queried⟩
  refine ⟨nodes, completions, performed, fun node outcome ended => ⟨queried node outcome ended, ?_⟩⟩
  rintro response rfl
  rcases queried node _ ended with ⟨number, call, result, callFound, _, _, returned, same⟩
  rw [Outcome.response_eq_some.mp same] at returned
  exact (sound.heard (number, .ok response) (Or.inr ⟨call, callFound, Or.inr returned⟩)).source

namespace SampleSearch

def searcher : Server := { Sample.peerServer with crypto := config.crypto }

/-- A search asks a node that does not answer in time. -/
def timedOut : List NodeEvent :=
  [.findStartingAt .min false config.chance [node 0], .takeStart 0 0, .begin 0 0, .messenger (.push 0),
    .messenger (.send 0 none), .messenger (.expire 0), .messenger (.removeExpired 0), .conclude 0, .take 0 0 0]

end SampleSearch

open SampleSearch in
theorem node_searches_run_timedOut : Exists fun final => Exists fun running : RunningSearch =>
    RunningNode.run (Node.new searcher) (.new (Router.new searcher.me) (∅ : MemoryTree)) timedOut = some final ∧
    final.searches[0]? = some running ∧ running.search.ignore = {node 0} ∧
    Exists fun nodes => Exists fun completions =>
      Search.run running.config nodes completions = some running.search := by
  have ends : ((RunningNode.run (Node.new searcher) (.new (Router.new searcher.me) (∅ : MemoryTree)) timedOut).bind
      fun final => final.searches[0]?.map fun running => running.search.ignore) = some {node 0} := by
    decide +kernel
  rcases Option.bind_eq_some_iff.mp ends with ⟨final, ran, last⟩
  rcases Option.map_eq_some_iff.mp last with ⟨running, found, ignored⟩
  rcases node_searches_run searcher _ (Router.reachable_new _) (∅ : MemoryTree) [] searcher.stores_empty timedOut final
    ran 0 running found with ⟨nodes, completions, performed, _⟩
  exact ⟨final, running, ran, found, ignored, nodes, completions, performed⟩

end DhtExplorer
