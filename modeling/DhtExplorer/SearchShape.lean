import DhtExplorer.SearchResult

namespace DhtExplorer

/-!
# The two results of a search

A search returns peers as soon as it got any, and nodes otherwise.  Peers come
from answers of their kind alone, and these are taken only by a search for
peers: its callers that expect nodes always get them.  A list of nodes is a part
of the seen set, so it is sorted and has no id twice, and whoever failed to
answer is left out of it.
-/

/-- `Node::find_n_starting_at`.  There is no result while tasks are left. -/
def findNStartingAt (config : SearchConfig) (k : UInt8) (nodes : List NodeInfo) (network : List Completion) :
    Option Found :=
  (Search.run config nodes network).bind fun final => if final.tasks.isEmpty then some (final.found k) else none

/-- The match of the callers that search for nodes.  The other arm is `unreachable!`. -/
def Found.expectNodes : Found -> Option (List NodeInfo)
  | .kClosest nodes => some nodes
  | .peers _ => none

namespace Router

/-- `Node::find` starts from what the routing table knows. -/
def find (self : Router) (config : SearchConfig) (k : UInt8) (network : List Completion) : Option Found :=
  (self.lookup config.target).bind fun nodes => findNStartingAt config k nodes network

def findNNodes (self : Router) (crypto : Crypto) (chance : Chance) (target : U160) (n : UInt8)
    (network : List Completion) : Option (List NodeInfo) :=
  (self.find ⟨crypto, chance, target, false⟩ n network).bind Found.expectNodes

def findNodes (self : Router) (crypto : Crypto) (chance : Chance) (target : U160) (network : List Completion) :
    Option (List NodeInfo) :=
  (self.find ⟨crypto, chance, target, false⟩ K_SIZE network).bind Found.expectNodes

/-- The table after the rest of a search.  A task tells it how its query ended before
the task finishes itself. -/
def told (config : SearchConfig) : Router -> Search config.target -> List Completion -> Option Router
  | self, _, [] => some self
  | self, search, completion :: rest =>
      (Search.step config search completion).bind fun next =>
        match search.tasks[completion.task]? with
        | some (.sendFind node) =>
            ((config.sendFind node completion.outcome).2.perform self).bind fun router => router.told config next rest
        | _ => self.told config next rest

end Router

namespace Search

variable {config : SearchConfig} {search next final : Search config.target} {k : UInt8} {nodes : List NodeInfo}
  {completions : List Completion}

/-- In the run, the query to the node ended in this way. -/
def Ended (config : SearchConfig) (nodes : List NodeInfo) (completions : List Completion) (node : NodeInfo)
    (outcome : Option Response) : Prop :=
  Exists fun before => Exists fun task => Exists fun after => Exists fun middle =>
    completions = before ++ ⟨task, outcome⟩ :: after ∧ Search.run config nodes before = some middle ∧
    middle.tasks[task]? = some (.sendFind node)

/-- In the run, a query was answered with these peers. -/
def ReceivedPeers (config : SearchConfig) (nodes : List NodeInfo) (completions : List Completion)
    (peers : List SocketAddr) : Prop :=
  Exists fun node => Exists fun response => Exists fun token => Exists fun more =>
    Ended config nodes completions node (some response) ∧ response.kind = .peers peers token more

/-! ## Peers -/

/-- A completion brings the peers of its result. -/
def peersOf : OneResult -> List SocketAddr
  | .peers peers _ => peers
  | _ => []

theorem mem_peers_step {completion : Completion} {peer : SocketAddr}
    (stepped : step config search completion = some next) :
    peer ∈ next.peers <-> peer ∈ search.peers ∨ Exists fun task => search.tasks[completion.task]? = some task ∧
      peer ∈ peersOf (config.result completion.outcome task) := by
  rcases step_eq_some stepped with ⟨task, ended, rfl⟩
  have only : (Exists fun other => search.tasks[completion.task]? = some other ∧
      peer ∈ peersOf (config.result completion.outcome other)) <->
      peer ∈ peersOf (config.result completion.outcome task) := by
    rw [ended]
    simp
  rw [peers_considerAll, finish, only]
  cases config.result completion.outcome task with
  | foundSome nodes => simp [settle, peersOf]
  | removeOne node => simp [settle, peersOf]
  | peers found nodes => simp [settle, peersOf]

/-- Only an answer with peers, to a search for peers, brings any. -/
theorem mem_peersOf_result {outcome : Option Response} {task : SearchTask} {peer : SocketAddr} :
    peer ∈ peersOf (config.result outcome task) <->
      config.findPeers = true ∧ Exists fun node => Exists fun response => Exists fun peers => Exists fun token =>
        Exists fun more => task = .sendFind node ∧ outcome = some response ∧
          response.kind = .peers peers token more ∧ peer ∈ peers := by
  cases task with
  | start nodes => simp [SearchConfig.result, peersOf]
  | sendFind node =>
      cases outcome with
      | none => simp [SearchConfig.result, SearchConfig.sendFind, peersOf]
      | some response =>
          cases kind : response.kind <;> cases forPeers : config.findPeers <;>
            simp [SearchConfig.result, SearchConfig.sendFind, peersOf, kind, forPeers]

/-- The peers at the end of a run are those of all answers that the search took. -/
theorem mem_peers_run (ran : Search.run config nodes completions = some final) {peer : SocketAddr} :
    peer ∈ final.peers <->
      config.findPeers = true ∧ Exists fun peers => ReceivedPeers config nodes completions peers ∧ peer ∈ peers := by
  have facts : forall (search : Search config.target) (completion : Completion) (next : Search config.target)
      (peer : SocketAddr), step config search completion = some next ->
      (peer ∈ next.peers <-> peer ∈ search.peers ∨ Exists fun task =>
        search.tasks[completion.task]? = some task ∧ peer ∈ peersOf (config.result completion.outcome task)) :=
    fun _ _ _ _ stepped => mem_peers_step stepped
  rw [PartialRun.run_fact_iff facts ran]
  constructor
  · rintro (initially | ⟨before, ⟨task, outcome⟩, after, middle, split, reached, there, ended, brought⟩)
    · exact absurd initially (Finset.notMem_empty _)
    · rcases mem_peersOf_result.mp brought with ⟨forPeers, node, response, peers, token, more, rfl, rfl, kind, member⟩
      exact ⟨forPeers, peers, ⟨node, response, token, more, ⟨before, task, after, middle, split, reached, ended⟩,
        kind⟩, member⟩
  · rintro ⟨forPeers, peers, ⟨node, response, token, more, ended, kind⟩, member⟩
    rcases ended with ⟨before, task, after, middle, split, reached, ended⟩
    refine Or.inr ⟨before, ⟨task, some response⟩, after, middle, split, reached, .sendFind node, ended, ?_⟩
    exact mem_peersOf_result.mpr ⟨forPeers, node, response, peers, token, more, rfl, rfl, kind, member⟩

/-! ## Nodes -/

theorem ignore_considerAll (search : Search config.target) (nodes : List NodeInfo) :
    (nodes.foldl (consider config) search).ignore = search.ignore := by
  induction nodes generalizing search with
  | nil => rfl
  | cons found rest ih =>
      have same : (consider config search found).ignore = search.ignore := by
        have step := considered config search found
        generalize consider config search found = next at step
        cases step <;> rfl
      rw [List.foldl_cons, ih, same]

theorem mem_ignore_step {completion : Completion} {node : NodeInfo}
    (stepped : step config search completion = some next) :
    node ∈ next.ignore <-> node ∈ search.ignore ∨ Exists fun task =>
      search.tasks[completion.task]? = some task ∧ config.result completion.outcome task = .removeOne node := by
  rcases step_eq_some stepped with ⟨task, ended, rfl⟩
  rw [ignore_considerAll, mem_finish_ignore, ended]
  simp

/-- Whoever failed to answer is ignored at the end of a run. -/
theorem mem_ignore_of_ended (ran : Search.run config nodes completions = some final) {node : NodeInfo}
    (failed : Ended config nodes completions node none) : node ∈ final.ignore := by
  rcases failed with ⟨before, task, after, middle, split, reached, ended⟩
  have facts : forall (search : Search config.target) (completion : Completion) (next : Search config.target)
      (node : NodeInfo), step config search completion = some next ->
      (node ∈ next.ignore <-> node ∈ search.ignore ∨ Exists fun task =>
        search.tasks[completion.task]? = some task ∧ config.result completion.outcome task = .removeOne node) :=
    fun _ _ _ _ stepped => mem_ignore_step stepped
  rw [PartialRun.run_fact_iff facts ran]
  exact Or.inr ⟨before, ⟨task, none⟩, after, middle, split, reached, .sendFind node, ended, rfl⟩

/-- What a list of nodes is, whatever the network did. -/
structure ClosestList (config : SearchConfig) (k : UInt8) (nodes : List NodeInfo) (completions : List Completion)
    (list : List NodeInfo) : Prop where
  length_le : list.length ≤ k.toNat
  ids_nodup : (list.map NodeInfo.id).Nodup
  sorted : list.Pairwise fun first second =>
    config.target.distance first.id < config.target.distance second.id
  not_failed : forall node, node ∈ list -> ¬Ended config nodes completions node none

theorem closestList (ran : Search.run config nodes completions = some final) {list : List NodeInfo}
    (returned : final.found k = .kClosest list) : ClosestList config k nodes completions list := by
  have same := found_eq_kClosest returned
  have part : list.Sublist final.seen.items := by
    rw [same]
    exact (List.take_sublist _ _).trans List.filter_sublist
  have sorted : list.Pairwise fun first second =>
      config.target.distance first.id < config.target.distance second.id := final.seen.sorted.sublist part
  refine ⟨?_, ?_, sorted, fun node member failed => ?_⟩
  · rw [same]
    exact List.length_take_le _ _
  · refine List.pairwise_map.mpr (sorted.imp fun closer same => ?_)
    rw [same] at closer
    exact lt_irrefl _ closer
  · rw [same] at member
    exact (mem_live.mp (List.mem_of_mem_take member)).2 (mem_ignore_of_ended ran failed)

end Search

/-- A search that returned has no task left. -/
theorem findNStartingAt_eq_some {config : SearchConfig} {k : UInt8} {nodes : List NodeInfo}
    {network : List Completion} {found : Found} (returned : findNStartingAt config k nodes network = some found) :
    Exists fun final => Search.run config nodes network = some final ∧ final.tasks = [] ∧ found = final.found k := by
  rcases Option.bind_eq_some_iff.mp returned with ⟨final, ran, ended⟩
  by_cases empty : final.tasks.isEmpty = true
  · rw [if_pos empty] at ended
    exact ⟨final, ran, List.isEmpty_iff.mp empty, (Option.some.inj ended).symm⟩
  · rw [if_neg empty] at ended
    cases ended

theorem findNStartingAt_isSome {config : SearchConfig} {k : UInt8} {nodes : List NodeInfo}
    {network : List Completion} : (findNStartingAt config k nodes network).isSome = true <->
      Exists fun final => Search.run config nodes network = some final ∧ final.tasks = [] := by
  rw [Option.isSome_iff_exists]
  constructor
  · rintro ⟨found, returned⟩
    rcases findNStartingAt_eq_some returned with ⟨final, ran, ended, _⟩
    exact ⟨final, ran, ended⟩
  · rintro ⟨final, ran, ended⟩
    refine ⟨final.found k, ?_⟩
    rw [findNStartingAt, ran, Option.bind_some, ended]
    rfl

theorem Search.found_eq_peers_iff {target : U160} (search : Search target) (k : UInt8) {peers : Finset SocketAddr} :
    search.found k = .peers peers <-> search.peers.Nonempty ∧ search.peers = peers := by
  unfold Search.found
  split
  · rename_i some
    rw [Found.peers.injEq]
    exact (and_iff_right some).symm
  · rename_i none
    exact iff_of_false (by simp) fun both => none both.1

/-- A search for nodes returns nodes. -/
theorem findNStartingAt_forNodes {config : SearchConfig} (forNodes : config.findPeers = false) {k : UInt8}
    {nodes : List NodeInfo} {network : List Completion} {found : Found}
    (returned : findNStartingAt config k nodes network = some found) :
    Exists fun list => found = .kClosest list := by
  rcases findNStartingAt_eq_some returned with ⟨final, ran, _, rfl⟩
  cases result : final.found k with
  | kClosest list => exact ⟨list, rfl⟩
  | peers peers =>
      rcases ((Search.found_eq_peers_iff final k).mp result).1 with ⟨peer, member⟩
      have forPeers := ((Search.mem_peers_run ran).mp member).1
      rw [forNodes] at forPeers
      cases forPeers

/-- The callers that search for nodes return whenever their search does. -/
theorem expectNodes_isSome {returned : Option Found}
    (nodes : forall found, returned = some found -> Exists fun list => found = .kClosest list) :
    (returned.bind Found.expectNodes).isSome = returned.isSome := by
  cases returned with
  | none => rfl
  | some found =>
      rcases nodes found rfl with ⟨list, rfl⟩
      rfl

/-- A search for peers returns peers exactly when some answer had one, and then
those of all answers. -/
theorem findNStartingAt_peers_iff {config : SearchConfig} (forPeers : config.findPeers = true) {k : UInt8}
    {nodes : List NodeInfo} {network : List Completion} {found : Found}
    (returned : findNStartingAt config k nodes network = some found) :
    (Exists fun peers => found = .peers peers) <->
      Exists fun answer => Search.ReceivedPeers config nodes network answer ∧ answer ≠ [] := by
  rcases findNStartingAt_eq_some returned with ⟨final, ran, _, rfl⟩
  simp only [Search.found_eq_peers_iff]
  constructor
  · rintro ⟨_, ⟨peer, member⟩, _⟩
    rcases (Search.mem_peers_run ran).mp member with ⟨_, answer, received, inside⟩
    exact ⟨answer, received, List.ne_nil_of_mem inside⟩
  · rintro ⟨answer, received, nonempty⟩
    rcases List.exists_mem_of_ne_nil answer nonempty with ⟨peer, inside⟩
    exact ⟨final.peers, ⟨peer, (Search.mem_peers_run ran).mpr ⟨forPeers, answer, received, inside⟩⟩, rfl⟩

theorem mem_found_peers {config : SearchConfig} {k : UInt8} {nodes : List NodeInfo} {network : List Completion}
    {peers : Finset SocketAddr} (returned : findNStartingAt config k nodes network = some (.peers peers))
    (peer : SocketAddr) : peer ∈ peers <->
      Exists fun answer => Search.ReceivedPeers config nodes network answer ∧ peer ∈ answer := by
  rcases findNStartingAt_eq_some returned with ⟨final, ran, _, result⟩
  rcases (Search.found_eq_peers_iff final k).mp result.symm with ⟨⟨some, someMember⟩, rfl⟩
  have forPeers := ((Search.mem_peers_run ran).mp someMember).1
  rw [Search.mem_peers_run ran, and_iff_right forPeers]

/-- What a search returns, for every start list, network and order of completion.
The callers that expect nodes return whenever the search does. -/
theorem search_result_shape (config : SearchConfig) (k : UInt8) (nodes : List NodeInfo) (network : List Completion) :
    (forall found, findNStartingAt config k nodes network = some found ->
      (config.findPeers = false -> Exists fun list => found = .kClosest list) ∧
      (config.findPeers = true ->
        ((Exists fun peers => found = .peers peers) <->
          Exists fun answer => Search.ReceivedPeers config nodes network answer ∧ answer ≠ [])) ∧
      (forall peers, found = .peers peers ->
        forall peer, peer ∈ peers <->
          Exists fun answer => Search.ReceivedPeers config nodes network answer ∧ peer ∈ answer) ∧
      (forall list, found = .kClosest list -> Search.ClosestList config k nodes network list)) ∧
    (forall (router : Router) (crypto : Crypto) (chance : Chance) (target : U160) (n : UInt8),
      (router.findNodes crypto chance target network).isSome =
        (router.find ⟨crypto, chance, target, false⟩ K_SIZE network).isSome ∧
      (router.findNNodes crypto chance target n network).isSome =
        (router.find ⟨crypto, chance, target, false⟩ n network).isSome ∧
      (findNNodesStartingAt crypto chance target n nodes network).isSome =
        (findNStartingAt ⟨crypto, chance, target, false⟩ n nodes network).isSome) := by
  constructor
  · intro found returned
    refine ⟨fun forNodes => findNStartingAt_forNodes forNodes returned,
      fun forPeers => findNStartingAt_peers_iff forPeers returned, ?_, ?_⟩
    · rintro peers rfl
      exact mem_found_peers returned
    · rintro list rfl
      rcases findNStartingAt_eq_some returned with ⟨final, ran, _, result⟩
      exact Search.closestList ran result.symm
  · intro router crypto chance target n
    have fromTable : forall (k : UInt8) found,
        router.find ⟨crypto, chance, target, false⟩ k network = some found ->
        Exists fun list => found = .kClosest list := by
      intro k found returned
      rcases Option.bind_eq_some_iff.mp returned with ⟨start, _, ended⟩
      exact findNStartingAt_forNodes rfl ended
    refine ⟨expectNodes_isSome (fromTable K_SIZE), expectNodes_isSome (fromTable n), ?_⟩
    rw [Bool.eq_iff_iff, findNNodesStartingAt_isSome, findNStartingAt_isSome]

open SampleSearch in
/-- The first node answers with a peer, and then the search returns it. -/
theorem search_result_shape_of_one_peer :
    findNStartingAt { config with findPeers := true } 8 [node 0]
        [⟨0, none⟩, ⟨0, answer (.peers [addr] [] none)⟩] = some (.peers {addr}) ∧
      Exists fun answers => Search.ReceivedPeers { config with findPeers := true } [node 0]
        [⟨0, none⟩, ⟨0, answer (.peers [addr] [] none)⟩] answers ∧ answers ≠ [] := by
  have returned : findNStartingAt { config with findPeers := true } 8 [node 0]
      [⟨0, none⟩, ⟨0, answer (.peers [addr] [] none)⟩] = some (.peers {addr}) := by
    decide +kernel
  have shape := (search_result_shape { config with findPeers := true } 8 [node 0]
    [⟨0, none⟩, ⟨0, answer (.peers [addr] [] none)⟩]).1 _ returned
  exact ⟨returned, (shape.2.1 rfl).mp ⟨{addr}, rfl⟩⟩

end DhtExplorer
