import Mathlib.Data.Finset.Card
import DhtExplorer.SearchInvariant

namespace DhtExplorer

/-!
# What a search returns

The nodes of the result are the first seen ones that are not ignored.  A node is
seen before it is validated, and an invalid node is neither queried nor ignored.
So the result consists of nodes that answered exactly when no invalid node was
ever put into the seen set.

In the other direction, a reported node can be missing from the result without
having been queried.  It has the id of another contact that was seen before it,
or it was left out at the limit, which does not depend on the number of nodes
asked for.
-/

namespace Search

variable {config : SearchConfig} {search next final : Search config.target} {found : NodeInfo} {k : UInt8}

/-- The nodes that may be returned. -/
def live {target : U160} (search : Search target) : List NodeInfo :=
  search.seen.items.filter fun node => node ∉ search.ignore

theorem mem_live {node : NodeInfo} : node ∈ search.live <-> node ∈ search.seen.items ∧ node ∉ search.ignore := by
  rw [live, List.mem_filter, decide_eq_true_iff]

theorem found_eq_kClosest {list : List NodeInfo} (returned : search.found k = .kClosest list) :
    list = search.live.take k.toNat := by
  unfold Search.found at returned
  split at returned
  · cases returned
  · exact (Found.kClosest.inj returned).symm

/-! ## Peers -/

theorem peers_considerAll (search : Search config.target) (nodes : List NodeInfo) :
    (nodes.foldl (consider config) search).peers = search.peers := by
  induction nodes generalizing search with
  | nil => rfl
  | cons found rest ih =>
      have same : (consider config search found).peers = search.peers := by
        have step := considered config search found
        generalize consider config search found = next at step
        cases step <;> rfl
      rw [List.foldl_cons, ih, same]

/-- A search for nodes takes no peers from any answer. -/
theorem result_ne_peers (forNodes : config.findPeers = false) (outcome : Option Response) (task : SearchTask)
    (peers : List SocketAddr) (nodes : Option (List NodeInfo)) : config.result outcome task ≠ .peers peers nodes := by
  intro result
  cases task with
  | start nodes => cases result
  | sendFind node =>
      change (config.sendFind node outcome).1 = _ at result
      unfold SearchConfig.sendFind at result
      cases outcome with
      | none => cases result
      | some r =>
          dsimp only at result
          rw [forNodes] at result
          split at result <;> cases result

theorem peers_step {completion : Completion} (forNodes : config.findPeers = false) (none : search.peers = ∅)
    (stepped : step config search completion = some next) : next.peers = ∅ := by
  rcases step_eq_some stepped with ⟨task, _, rfl⟩
  rw [peers_considerAll, finish]
  cases result : config.result completion.outcome task with
  | foundSome nodes => exact none
  | removeOne node => exact none
  | peers found nodes => exact absurd result (result_ne_peers forNodes completion.outcome task found nodes)

/-! ## Nodes that did not answer -/

/-- No invalid node is put into the seen set: each is too far away when it is
considered, or its id is seen. -/
def AdmitsValid (config : SearchConfig) : Search config.target -> List NodeInfo -> Prop
  | _, [] => True
  | search, found :: rest =>
      (closeEnough config search.seen found = true -> (search.seen.insert found).2 = true ->
        config.valid found = true) ∧ AdmitsValid config (consider config search found) rest

/-- The nodes that a completion reports are admitted only if they are valid. -/
def Admits (config : SearchConfig) (search : Search config.target) (completion : Completion) : Prop :=
  forall task, search.tasks[completion.task]? = some task ->
    AdmitsValid config (finish config search completion task) (reportedBy (config.result completion.outcome task))

def SeenValid (config : SearchConfig) (search : Search config.target) : Prop :=
  forall node, node ∈ search.seen.items -> config.valid node = true

theorem seenValid_insert (search : Search config.target) (found : NodeInfo) :
    (forall node, node ∈ (search.seen.insert found).1.items -> config.valid node = true) <->
      SeenValid config search ∧ ((search.seen.insert found).2 = true -> config.valid found = true) := by
  constructor
  · intro all
    exact ⟨fun node member => all node (OrderedSet.mem_insert.mpr (Or.inl member)),
      fun taken => all found (OrderedSet.mem_insert.mpr (Or.inr ⟨rfl, taken⟩))⟩
  · rintro ⟨before, here⟩ node member
    rcases OrderedSet.mem_insert.mp member with old | ⟨rfl, taken⟩
    · exact before node old
    · exact here taken

theorem seenValid_consider (search : Search config.target) (found : NodeInfo) :
    SeenValid config (consider config search found) <->
      SeenValid config search ∧ (closeEnough config search.seen found = true ->
        (search.seen.insert found).2 = true -> config.valid found = true) := by
  have step := considered config search found
  generalize consider config search found = next at step
  cases step with
  | pruned far => exact (and_iff_left fun close => absurd close (Bool.eq_false_iff.mp far)).symm
  | passed close skipped =>
      exact (seenValid_insert search found).trans (and_congr_right fun _ => (imp_iff_right close).symm)
  | opened close taken valid =>
      exact (seenValid_insert search found).trans (and_congr_right fun _ => (imp_iff_right close).symm)

theorem seenValid_considerAll (search : Search config.target) (nodes : List NodeInfo) :
    SeenValid config (nodes.foldl (consider config) search) <->
      SeenValid config search ∧ AdmitsValid config search nodes := by
  induction nodes generalizing search with
  | nil => exact (and_iff_left trivial).symm
  | cons found rest ih =>
      rw [List.foldl_cons, ih, seenValid_consider, and_assoc]
      rfl

theorem seenValid_step {completion : Completion} (stepped : step config search completion = some next) :
    SeenValid config next <-> SeenValid config search ∧ Admits config search completion := by
  rcases step_eq_some stepped with ⟨task, ended, rfl⟩
  have seen := (finish_fields config search completion task).1
  have admits : Admits config search completion <->
      AdmitsValid config (finish config search completion task)
        (reportedBy (config.result completion.outcome task)) := by
    refine ⟨fun all => all task ended, fun here other endedToo => ?_⟩
    rw [ended] at endedToo
    exact Option.some.inj endedToo ▸ here
  rw [seenValid_considerAll, admits, SeenValid, SeenValid, seen]

/-- The seen nodes are valid at the end exactly when only valid ones were admitted. -/
theorem seenValid_run {nodes : List NodeInfo} {completions : List Completion}
    (ran : Search.run config nodes completions = some final) :
    SeenValid config final <->
      PartialRun.Permitted (step config) (Admits config) (start config.target nodes) completions := by
  rw [PartialRun.run_property_iff (fun _ _ _ stepped => seenValid_step stepped) ran]
  exact and_iff_right fun node member => absurd member List.not_mem_nil

/-- At the end of a search, a live node answered if it is valid. -/
theorem Sound.live_answered (sound : Sound config search) (ended : search.tasks = []) {node : NodeInfo}
    (member : node ∈ search.live) (valid : config.valid node = true) :
    node ∈ search.queried ∧ node ∈ search.answered := by
  rcases mem_live.mp member with ⟨seen, kept⟩
  have queried := (sound.queried_iff node).mpr ⟨seen, valid⟩
  refine ⟨queried, ?_⟩
  rcases sound.waiting node queried with waiting | answered | ignored
  · rw [ended] at waiting
    exact absurd waiting List.not_mem_nil
  · exact answered
  · exact absurd ignored kept

end Search

/-- A search for nodes returns nodes as soon as no task is left: the arm of its
callers for peers is not reached. -/
theorem findNNodesStartingAt_isSome (crypto : Crypto) (chance : Chance) (target : U160) (n : UInt8)
    (nodes : List NodeInfo) (network : List Completion) :
    (findNNodesStartingAt crypto chance target n nodes network).isSome = true <->
      Exists fun final => Search.run ⟨crypto, chance, target, false⟩ nodes network = some final ∧ final.tasks = [] := by
  unfold findNNodesStartingAt
  cases ran : Search.run ⟨crypto, chance, target, false⟩ nodes network with
  | none => simp
  | some final =>
      have none : final.peers = ∅ :=
        PartialRun.run_invariant (fun _ _ _ none stepped => Search.peers_step rfl none stepped) rfl ran
      have found : final.found n = .kClosest (final.live.take n.toNat) := by
        rw [Search.found, none, if_neg Finset.not_nonempty_empty]
        rfl
      simp [found, List.isEmpty_iff]

/-- Every node that a search may return was queried and answered exactly when no
invalid node was put into the seen set.  In particular this holds of the nodes
it does return. -/
theorem found_answered_iff (config : SearchConfig) (nodes : List NodeInfo) (completions : List Completion)
    (final : Search config.target) (ran : Search.run config nodes completions = some final)
    (ended : final.tasks = []) :
    (PartialRun.Permitted (Search.step config) (Search.Admits config) (Search.start config.target nodes) completions <->
      forall node, node ∈ final.live -> node ∈ final.queried ∧ node ∈ final.answered) ∧
    (PartialRun.Permitted (Search.step config) (Search.Admits config) (Search.start config.target nodes) completions ->
      forall k list, final.found k = .kClosest list ->
        forall node, node ∈ list -> node ∈ final.queried ∧ node ∈ final.answered) := by
  have sound := Search.Sound.run ran
  have exactly := Search.seenValid_run ran
  have answered : Search.SeenValid config final -> forall node, node ∈ final.live ->
      node ∈ final.queried ∧ node ∈ final.answered := fun valid node member =>
    sound.live_answered ended member (valid node (Search.mem_live.mp member).1)
  refine ⟨exactly.symm.trans ⟨answered, fun all node seen => ?_⟩, fun permitted k list returned node member => ?_⟩
  · by_cases ignored : node ∈ final.ignore
    · exact ((sound.queried_iff node).mp (sound.ignore_queried node ignored)).2
    · exact ((sound.queried_iff node).mp (all node (Search.mem_live.mpr ⟨seen, ignored⟩)).1).2
  · rw [Search.found_eq_kClosest returned] at member
    exact answered (exactly.mpr permitted) node (List.mem_of_mem_take member)

namespace SampleSearch

/-- The tasks that are left, what is returned, and which nodes were queried. -/
def ends (nodes : List NodeInfo) (completions : List Completion) (k : UInt8) :
    Option (List SearchTask × Found × List NodeInfo) :=
  (Search.run config nodes completions).map fun final => (final.tasks, final.found k, final.queried)

end SampleSearch

open SampleSearch in
/-- The search returns a node that is not valid and that it did not query. -/
theorem found_not_queried : ends [invalid] [⟨0, none⟩] 8 = some ([], .kClosest [invalid], []) := by
  decide +kernel

open SampleSearch in
theorem found_answered_of_valid_start :
    Exists fun final => Search.run config [node 0] [⟨0, none⟩, ⟨0, answer (.kNearest [] none)⟩] = some final ∧
      final.found 8 = .kClosest [node 0] ∧ node 0 ∈ final.queried ∧ node 0 ∈ final.answered := by
  have run : (Search.run config [node 0] [⟨0, none⟩, ⟨0, answer (.kNearest [] none)⟩]).map
      (fun final => (final.tasks, final.found 8, final.seen.items)) = some ([], .kClosest [node 0], [node 0]) := by
    decide +kernel
  have valid : config.valid (node 0) = true := by
    decide +kernel
  rcases Option.map_eq_some_iff.mp run with ⟨final, ran, result⟩
  rcases Prod.mk.inj result with ⟨ended, rest⟩
  rcases Prod.mk.inj rest with ⟨found, seen⟩
  have seenValid : Search.SeenValid config final := by
    intro present member
    rw [seen, List.mem_singleton] at member
    exact member ▸ valid
  exact ⟨final, ran, found, (found_answered_iff config _ _ final ran ended).2 ((Search.seenValid_run ran).mp seenValid)
    8 [node 0] found (node 0) List.mem_cons_self⟩

/-! ## Nodes that were not queried -/

namespace Search

variable {config : SearchConfig} {search final : Search config.target}

/-- A node that is closer than the last returned one, or any node if fewer than `k`
are returned. -/
def Candidate (target : U160) (k : UInt8) (list : List NodeInfo) (node : NodeInfo) : Prop :=
  list.length < k.toNat ∨
    Exists fun last => list.getLast? = some last ∧ target.distance node.id < target.distance last.id

/-- The seen nodes that are not live are ignored. -/
theorem length_ignored_le (search : Search config.target) :
    (search.seen.items.filter fun node => !decide (node ∉ search.ignore)).length ≤ search.ignore.card := by
  have nodup : (search.seen.items.filter fun node => !decide (node ∉ search.ignore)).Nodup :=
    (List.Nodup.of_map _ search.seen.nodup_keys).filter _
  rw [<- List.toFinset_card_of_nodup nodup]
  apply Finset.card_le_card
  intro node member
  have kept := (List.mem_filter.mp (List.mem_toFinset.mp member)).2
  rw [Bool.not_eq_true', decide_eq_false_iff_not, not_not] at kept
  exact kept

/-- Few seen nodes are closer than a candidate. -/
theorem below_lt_of_candidate {k : UInt8} {list : List NodeInfo} {node : NodeInfo}
    (returned : search.found k = .kClosest list) (candidate : Candidate config.target k list node) :
    search.seen.below (config.target.distance node.id) < k.toNat + search.ignore.card := by
  refine Nat.lt_of_lt_of_le ?_ (Nat.add_le_add_left (length_ignored_le search) k.toNat)
  apply OrderedSet.below_lt_of_take
  have same : list = (search.seen.items.filter fun node => decide (node ∉ search.ignore)).take k.toNat :=
    found_eq_kClosest returned
  rw [<- same]
  rcases candidate with short | ⟨last, ends, closer⟩
  · exact Or.inl short
  · exact Or.inr ⟨last, List.mem_of_getLast? ends, le_of_lt closer⟩

end Search

/-- A reported valid node that could belong to the result was queried, unless
another contact with its id was seen, or it was left out at the limit.  The limit
leaves out candidates only if `k` and the ignored nodes together exceed it. -/
theorem search_completeness (config : SearchConfig) (nodes : List NodeInfo) (completions : List Completion)
    (final : Search config.target) (ran : Search.run config nodes completions = some final)
    (k : UInt8) (list : List NodeInfo) (returned : final.found k = .kClosest list)
    (node : NodeInfo) (reported : node ∈ final.reported) (valid : config.valid node = true)
    (candidate : Search.Candidate config.target k list node) :
    node ∈ final.queried ∨
      (Exists fun present => present ∈ final.seen.items ∧ present.id = node.id ∧ present ≠ node) ∨
      (SEEN_LIMIT ≤ final.seen.below (config.target.distance node.id) ∧ SEEN_LIMIT < k.toNat + final.ignore.card) := by
  have sound := Search.Sound.run ran
  rcases sound.left_out node reported with ⟨present, seen, same⟩ | many
  · by_cases itself : present = node
    · exact Or.inl ((sound.queried_iff node).mpr ⟨itself ▸ seen, valid⟩)
    · exact Or.inr (Or.inl ⟨present, seen, same, itself⟩)
  · exact Or.inr (Or.inr ⟨many, Nat.lt_of_le_of_lt many (Search.below_lt_of_candidate returned candidate)⟩)

namespace SampleSearch

/-- The same contact behind another port. -/
def moved : NodeInfo := ⟨(node 0).id, .v4 0x7c1f4b15 6882⟩

/-- One node more than are compared with. -/
def many : List NodeInfo := (List.range 18).map node

end SampleSearch

open SampleSearch in
/-- Three valid nodes that were reported, could belong to the result and were not
queried: the second contact with an id, the one at the limit, and one in an
answer of the wrong kind. -/
theorem search_incomplete :
    (ends [node 0, moved] [⟨0, none⟩, ⟨0, none⟩] 8 = some ([], .kClosest [], [node 0]) ∧
      config.valid moved = true) ∧
    (ends many (List.replicate 18 ⟨0, none⟩) 255 = some ([], .kClosest [], many.take 17) ∧
      config.valid (node 17) = true) ∧
    (ends [node 0] [⟨0, none⟩, ⟨0, answer (.samples [node 1] [] 0 0)⟩] 8 = some ([], .kClosest [], [node 0]) ∧
      config.valid (node 1) = true) := by
  decide +kernel

open SampleSearch in
theorem search_completeness_of_two_nodes :
    Exists fun final => Search.run config [node 0, node 1] [⟨0, none⟩, ⟨0, none⟩, ⟨0, none⟩] = some final ∧
      (node 1 ∈ final.queried ∨
        (Exists fun present => present ∈ final.seen.items ∧ present.id = (node 1).id ∧ present ≠ node 1) ∨
        (SEEN_LIMIT ≤ final.seen.below (config.target.distance (node 1).id) ∧
          SEEN_LIMIT < (8 : UInt8).toNat + final.ignore.card)) := by
  have run : (Search.run config [node 0, node 1] [⟨0, none⟩, ⟨0, none⟩, ⟨0, none⟩]).map
      (fun final => (final.found 8, final.reported)) = some (.kClosest [], [node 0, node 1]) := by
    decide +kernel
  rcases Option.map_eq_some_iff.mp run with ⟨final, ran, result⟩
  rcases Prod.mk.inj result with ⟨found, reported⟩
  have member : node 1 ∈ final.reported := by
    rw [reported]
    exact List.mem_cons_of_mem _ List.mem_cons_self
  exact ⟨final, ran, search_completeness config _ _ final ran 8 [] found (node 1) member (by decide +kernel)
    (Or.inl (by decide))⟩

end DhtExplorer
