import DhtExplorer.SearchShape

namespace DhtExplorer

/-!
# The search reaches the closest node

A search needs no more than that whoever answers knows someone closer.  Then the
closest seen node is the closest one there is: any other would have answered with
a closer node, and the search would have seen that one.

Nodes that fail, or that are not valid, disturb this only through the limit of the
loop, which leaves out a reported node when enough closer ones are seen.  As long
as there are fewer of them than the limit, they may come in any number of answers.
-/

/-- The nodes that a search can hear of.  The members are valid and answer; nothing
is known of the others, but there are fewer of them than the limit of the loop. -/
structure Neighbourhood (config : SearchConfig) where
  members : NodeInfo -> Prop
  others : Finset NodeInfo
  closest : NodeInfo
  valid : forall member, members member -> config.valid member = true
  oneAddress : forall member, members member -> forall node, members node ∨ node ∈ others ->
    node.id = member.id -> node = member
  closest_member : members closest
  closest_le : forall member, members member ->
    config.target.distance closest.id ≤ config.target.distance member.id
  few : others.card < SEEN_LIMIT

namespace Neighbourhood

variable {config : SearchConfig} (neighbourhood : Neighbourhood config)

/-- A member, or one of the others. -/
def Known (node : NodeInfo) : Prop := neighbourhood.members node ∨ node ∈ neighbourhood.others

/-- A result that reports a closer member, unless it comes from the closest one. -/
def Advances (node : NodeInfo) (result : OneResult) : Prop :=
  node = neighbourhood.closest ∨
    Exists fun closer => closer ∈ Search.reportedBy result ∧ neighbourhood.members closer ∧
      config.target.distance closer.id < config.target.distance node.id

/-- The task of a member gets an answer that advances the search. -/
def Answers (result : OneResult) : SearchTask -> Prop
  | .start _ => True
  | .sendFind node => neighbourhood.members node -> result ≠ .removeOne node ∧ neighbourhood.Advances node result

/-- Only known nodes are reported, and members answer and advance the search. -/
def Helps (search : Search config.target) (completion : Completion) : Prop :=
  forall task, search.tasks[completion.task]? = some task ->
    (forall node, node ∈ Search.reportedBy (config.result completion.outcome task) -> neighbourhood.Known node) ∧
    neighbourhood.Answers (config.result completion.outcome task) task

/-- Where it can be decided who is a member, it can be decided what helps. -/
instance [DecidablePred neighbourhood.members] : DecidablePred neighbourhood.Known :=
  fun _ => inferInstanceAs (Decidable (_ ∨ _))

instance [DecidablePred neighbourhood.members] (node : NodeInfo) (result : OneResult) :
    Decidable (neighbourhood.Advances node result) := inferInstanceAs (Decidable (_ ∨ _))

instance [DecidablePred neighbourhood.members] (result : OneResult) :
    (task : SearchTask) -> Decidable (neighbourhood.Answers result task)
  | .start _ => isTrue trivial
  | .sendFind _ => inferInstanceAs (Decidable (_ -> _ ∧ _))

instance [DecidablePred neighbourhood.members] (search : Search config.target) (completion : Completion) :
    Decidable (neighbourhood.Helps search completion) :=
  inferInstanceAs (Decidable (forall task, task ∈ search.tasks[completion.task]? -> _ ∧ _))

end Neighbourhood

namespace Search

variable {config : SearchConfig} {neighbourhood : Neighbourhood config} {search next final : Search config.target}
  {completion : Completion}

/-- The nodes of one answer are all reported, and change neither who has answered nor
the tasks there were. -/
theorem considerAll_fields (search : Search config.target) (nodes : List NodeInfo) :
    (nodes.foldl (consider config) search).reported = search.reported ++ nodes ∧
      (nodes.foldl (consider config) search).answered = search.answered ∧
      forall task, task ∈ search.tasks -> task ∈ (nodes.foldl (consider config) search).tasks := by
  induction nodes generalizing search with
  | nil => exact ⟨(List.append_nil _).symm, rfl, fun _ member => member⟩
  | cons found rest ih =>
      have first : (consider config search found).reported = search.reported ++ [found] ∧
          (consider config search found).answered = search.answered ∧
          forall task, task ∈ search.tasks -> task ∈ (consider config search found).tasks := by
        have step := considered config search found
        generalize consider config search found = next at step
        cases step with
        | pruned far => exact ⟨rfl, rfl, fun _ member => member⟩
        | passed close skipped => exact ⟨rfl, rfl, fun _ member => member⟩
        | opened close taken valid => exact ⟨rfl, rfl, fun _ member => List.mem_append_left _ member⟩
      rcases ih (consider config search found) with ⟨reported, answered, tasks⟩
      rw [List.foldl_cons, reported, answered, first.1, first.2.1, List.append_assoc]
      exact ⟨rfl, rfl, fun task member => tasks task (first.2.2 task member)⟩

/-! ## The invariant -/

/-- What the members contribute in every state of a search that they help. -/
structure Guided (neighbourhood : Neighbourhood config) (search : Search config.target) : Prop where
  sound : Sound config search
  known : forall node, node ∈ search.reported -> neighbourhood.Known node
  kept : forall node, node ∈ search.ignore -> ¬neighbourhood.members node
  advanced : forall node, node ∈ search.answered -> neighbourhood.members node ->
    neighbourhood.Advances node (.foundSome search.reported)
  entered : Exists fun member => neighbourhood.members member ∧
    (member ∈ search.reported ∨ Exists fun nodes => .start nodes ∈ search.tasks ∧ member ∈ nodes)

theorem guided_start {nodes : List NodeInfo} {member : NodeInfo} (among : member ∈ nodes)
    (isMember : neighbourhood.members member) : Guided neighbourhood (start config.target nodes) where
  sound := sound_start config nodes
  known := fun _ reported => absurd reported List.not_mem_nil
  kept := fun _ ignored => absurd ignored (Finset.notMem_empty _)
  advanced := fun _ answered => absurd answered List.not_mem_nil
  entered := ⟨member, isMember, Or.inr ⟨nodes, List.mem_singleton.mpr rfl, among⟩⟩

/-- The step lemma. -/
theorem Guided.step (guided : Guided neighbourhood search) (helps : neighbourhood.Helps search completion)
    (stepped : Search.step config search completion = some next) : Guided neighbourhood next := by
  have sound := guided.sound.step stepped
  rcases step_eq_some stepped with ⟨task, ended, rfl⟩
  rcases helps task ended with ⟨onlyKnown, helpful⟩
  rcases finish_fields config search completion task with ⟨_, reportedBefore, _, tasksLeft, answeredNow⟩
  rcases considerAll_fields (Search.finish config search completion task)
    (reportedBy (config.result completion.outcome task)) with ⟨reported, answered, tasks⟩
  rw [reportedBefore] at reported
  rw [answeredNow] at answered
  rw [tasksLeft] at tasks
  refine ⟨sound, ?_, ?_, ?_, ?_⟩
  · intro node member
    rw [reported] at member
    rcases List.mem_append.mp member with before | now
    · exact guided.known node before
    · exact onlyKnown node now
  · intro node ignored isMember
    rw [ignore_considerAll, mem_finish_ignore] at ignored
    rcases ignored with before | removed
    · exact guided.kept node before isMember
    · cases (settles_iff config completion.outcome task node).mp (Or.inr removed)
      exact (helpful isMember).1 removed
  · intro node member isMember
    rw [answered] at member
    rw [reported]
    rcases List.mem_append.mp member with before | now
    · refine (guided.advanced node before isMember).imp_right ?_
      rintro ⟨closer, closerReported, closerMember, less⟩
      exact ⟨closer, List.mem_append_left _ closerReported, closerMember, less⟩
    · cases (settles_iff config completion.outcome task node).mp (Or.inl now)
      refine (helpful isMember).2.imp_right ?_
      rintro ⟨closer, closerReported, closerMember, less⟩
      exact ⟨closer, List.mem_append_right _ closerReported, closerMember, less⟩
  · rcases guided.entered with ⟨member, isMember, before | ⟨nodes, waiting, among⟩⟩
    · refine ⟨member, isMember, Or.inl ?_⟩
      rw [reported]
      exact List.mem_append_left _ before
    · refine ⟨member, isMember, ?_⟩
      rcases VecOps.mem_eraseIdx_or ended waiting with rfl | still
      · rw [reported]
        exact Or.inl (List.mem_append_right _ among)
      · exact Or.inr ⟨nodes, tasks _ still, among⟩

theorem Guided.run {nodes : List NodeInfo} {completions : List Completion} {member : NodeInfo} (among : member ∈ nodes)
    (isMember : neighbourhood.members member)
    (helped : PartialRun.Permitted (Search.step config) neighbourhood.Helps (start config.target nodes) completions)
    (ran : Search.run config nodes completions = some final) : Guided neighbourhood final :=
  PartialRun.run_invariant_of_permitted (fun _ _ _ guided helps stepped => Guided.step guided helps stepped)
    (guided_start among isMember) helped ran

/-! ## What is left when the search ends -/

/-- A reported member is seen, or another one that is closer. -/
theorem Guided.seen_member (guided : Guided neighbourhood search) {member : NodeInfo}
    (reported : member ∈ search.reported) (isMember : neighbourhood.members member) :
    Exists fun present => present ∈ search.seen.items ∧ neighbourhood.members present ∧
      config.target.distance present.id ≤ config.target.distance member.id := by
  rcases guided.sound.left_out member reported with ⟨present, seen, same⟩ | many
  · have known := guided.known present (guided.sound.seen_reported present seen)
    have itself := neighbourhood.oneAddress member isMember present known same
    exact ⟨present, seen, itself ▸ isMember, le_of_eq (congrArg _ same)⟩
  · rcases OrderedSet.exists_below (Nat.lt_of_lt_of_le neighbourhood.few many) with ⟨closer, seen, less, noOther⟩
    have known := guided.known closer (guided.sound.seen_reported closer seen)
    exact ⟨closer, seen, known.resolve_right noOther, le_of_lt less⟩

theorem Guided.answered_member (guided : Guided neighbourhood search) (ended : search.tasks = []) {member : NodeInfo}
    (seen : member ∈ search.seen.items) (isMember : neighbourhood.members member) : member ∈ search.answered := by
  have live : member ∈ search.live := mem_live.mpr ⟨seen, fun ignored => guided.kept member ignored isMember⟩
  exact (guided.sound.live_answered ended live (neighbourhood.valid member isMember)).2

theorem Guided.closest_live (guided : Guided neighbourhood search) (ended : search.tasks = []) :
    neighbourhood.closest ∈ search.live := by
  refine mem_live.mpr ⟨?_, fun ignored => guided.kept _ ignored neighbourhood.closest_member⟩
  have nonempty : Exists fun node => node ∈ search.seen.items ∧ neighbourhood.members node := by
    rcases guided.entered with ⟨member, isMember, reported | ⟨nodes, waiting, _⟩⟩
    · rcases guided.seen_member reported isMember with ⟨present, seen, presentMember, _⟩
      exact ⟨present, seen, presentMember⟩
    · rw [ended] at waiting
      exact absurd waiting List.not_mem_nil
  apply OrderedSet.mem_of_descends nonempty
  intro node seen isMember
  refine (guided.advanced node (guided.answered_member ended seen isMember) isMember).imp_right ?_
  rintro ⟨closer, reported, closerMember, less⟩
  rcases guided.seen_member reported closerMember with ⟨present, presentSeen, presentMember, le⟩
  exact ⟨present, presentSeen, presentMember, lt_of_le_of_lt le less⟩

/-- Only others are in front of the closest member. -/
theorem Guided.front (guided : Guided neighbourhood search) {node : NodeInfo} (live : node ∈ search.live)
    (closer : config.target.distance node.id < config.target.distance neighbourhood.closest.id) :
    node ∈ neighbourhood.others := by
  have known := guided.known node (guided.sound.seen_reported node (mem_live.mp live).1)
  exact known.resolve_left fun isMember => absurd closer (not_lt.mpr (neighbourhood.closest_le node isMember))

/-- Where the closest member stands among the nodes that may be returned. -/
theorem Guided.live_split (guided : Guided neighbourhood search) (ended : search.tasks = []) :
    Exists fun before => Exists fun after => search.live = before ++ neighbourhood.closest :: after ∧
      (forall node, node ∈ before -> node ∈ neighbourhood.others) ∧ before.length ≤ neighbourhood.others.card := by
  rcases List.append_of_mem (guided.closest_live ended) with ⟨before, after, split⟩
  have sorted : search.live.Pairwise fun first second =>
      config.target.distance first.id < config.target.distance second.id :=
    search.seen.sorted.sublist List.filter_sublist
  rw [split] at sorted
  have others : forall node, node ∈ before -> node ∈ neighbourhood.others := by
    intro node member
    refine guided.front ?_ ((List.pairwise_append.mp sorted).2.2 node member _ List.mem_cons_self)
    rw [split]
    exact List.mem_append_left _ member
  refine ⟨before, after, split, others, ?_⟩
  have nodup : before.Nodup := (List.pairwise_append.mp sorted).1.imp fun less same => by
    rw [same] at less
    exact lt_irrefl _ less
  rw [<- List.toFinset_card_of_nodup nodup]
  apply Finset.card_le_card
  exact fun node member => others node (List.mem_toFinset.mp member)

theorem Guided.found_split (guided : Guided neighbourhood search) (ended : search.tasks = []) {k : UInt8}
    {list : List NodeInfo} (returned : search.found k = .kClosest list)
    (enough : neighbourhood.others.card < k.toNat) :
    Exists fun before => Exists fun after => list = before ++ neighbourhood.closest :: after ∧
      forall node, node ∈ before -> node ∈ neighbourhood.others := by
  rcases guided.live_split ended with ⟨before, after, split, others, few⟩
  have room : before.length < k.toNat := Nat.lt_of_le_of_lt few enough
  refine ⟨before, after.take (k.toNat - before.length - 1), ?_, others⟩
  rw [found_eq_kClosest returned, split, List.take_append, List.take_of_length_le (Nat.le_of_lt room),
    List.take_cons (Nat.sub_pos_of_lt room)]

/-- Whoever answered was asked, and the query ended. -/
theorem ended_of_answered {nodes : List NodeInfo} {completions : List Completion}
    (ran : Search.run config nodes completions = some final) {node : NodeInfo} (answered : node ∈ final.answered) :
    Exists fun outcome => Ended config nodes completions node outcome := by
  have origin : forall (search : Search config.target) (completion : Completion) (next : Search config.target)
      (node : NodeInfo), Search.step config search completion = some next -> node ∈ next.answered ->
      node ∈ search.answered ∨ search.tasks[completion.task]? = some (.sendFind node) := by
    intro search completion next node stepped member
    rcases step_eq_some stepped with ⟨task, ended, rfl⟩
    rw [(considerAll_fields _ _).2.1, (finish_fields config search completion task).2.2.2.2, List.mem_append] at member
    refine member.imp_right fun now => ?_
    rw [ended, (settles_iff config completion.outcome task node).mp (Or.inl now)]
  rcases PartialRun.run_origin origin ran answered with
    initially | ⟨before, ⟨task, outcome⟩, after, middle, split, there, own⟩
  · exact absurd initially List.not_mem_nil
  · exact ⟨outcome, before, task, after, middle, split, there, own⟩

end Search

/-- A search that starts from a member, where every member answers and all but the
closest one report a closer member, asks the closest member in the end, whatever the
order of the answers.  Only others stand in front of it in the result. -/
theorem search_reaches_closest (config : SearchConfig) (neighbourhood : Neighbourhood config) (nodes : List NodeInfo)
    (completions : List Completion) (final : Search config.target)
    (ran : Search.run config nodes completions = some final) (ended : final.tasks = [])
    (member : NodeInfo) (among : member ∈ nodes) (isMember : neighbourhood.members member)
    (helped : PartialRun.Permitted (Search.step config) neighbourhood.Helps (Search.start config.target nodes)
      completions) :
    neighbourhood.closest ∈ final.answered ∧
    forall k list, final.found k = .kClosest list -> neighbourhood.others.card < k.toNat ->
      Exists fun before => Exists fun after => list = before ++ neighbourhood.closest :: after ∧
        forall node, node ∈ before -> node ∈ neighbourhood.others := by
  have guided := Search.Guided.run among isMember helped ran
  have live := guided.closest_live ended
  refine ⟨guided.answered_member ended (Search.mem_live.mp live).1 neighbourhood.closest_member, ?_⟩
  exact fun k list returned enough => guided.found_split ended returned enough

namespace SampleSearch

/-- Two members, and one contact that is not valid. -/
def neighbourhood : Neighbourhood config where
  members := fun member => member = node 0 ∨ member = node 1
  others := {invalid}
  closest := node 0
  valid := by
    rintro member (rfl | rfl) <;> decide +kernel
  oneAddress := by
    have apart : (node 0).id ≠ (node 1).id ∧ invalid.id ≠ (node 0).id ∧ invalid.id ≠ (node 1).id := by decide +kernel
    rintro member (rfl | rfl) other ((rfl | rfl) | among) same
    · rfl
    · exact absurd same.symm apart.1
    · exact absurd (Finset.mem_singleton.mp among ▸ same) apart.2.1
    · exact absurd same apart.1
    · rfl
    · exact absurd (Finset.mem_singleton.mp among ▸ same) apart.2.2
  closest_member := Or.inl rfl
  closest_le := by
    rintro member (rfl | rfl)
    · exact le_refl _
    · exact le_of_lt (by decide +kernel)
  few := by decide

/-- The farther member tells of the closer one and of the contact that is not valid. -/
def told : List Completion :=
  [⟨0, none⟩, ⟨0, answer (.kNearest [invalid, node 0] none)⟩, ⟨0, answer (.kNearest [] none)⟩]

instance : DecidablePred neighbourhood.members :=
  fun member => inferInstanceAs (Decidable (member = node 0 ∨ member = node 1))

end SampleSearch

open SampleSearch in
/-- The farther member is asked first. -/
theorem search_reaches_closest_of_two :
    Exists fun final => Search.run config [node 1] told = some final ∧ node 0 ∈ final.answered := by
  have run : (Search.run config [node 1] told).map (fun final => final.tasks) = some [] := by
    decide +kernel
  have helped : PartialRun.Permitted (Search.step config) neighbourhood.Helps (Search.start config.target [node 1])
      told := by
    decide +kernel
  rcases Option.map_eq_some_iff.mp run with ⟨final, ran, ended⟩
  exact ⟨final, ran, (search_reaches_closest config neighbourhood [node 1] told final ran ended (node 1)
    List.mem_cons_self (Or.inr rfl) helped).1⟩

end DhtExplorer
