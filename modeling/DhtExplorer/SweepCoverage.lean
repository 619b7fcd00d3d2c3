import Mathlib.Logic.Relation
import DhtExplorer.SweepEnd

namespace DhtExplorer

/-!
# What the sweep covers

The sweep takes up what a node tells it only above that node, so it goes through the
keyspace upwards.  Whatever can be reached in this way from the first nodes is asked
in the end, in whatever order the answers come, and all that is held there is sent on.

Other nodes may be reported at any time, and may tell anything, unless they carry the
id of a member: of two nodes with one id, only the first is queued.
-/

/-- The members of a network, whom each of them names, and what it holds. -/
structure Keyspace where
  members : NodeInfo -> Prop
  names : NodeInfo -> NodeInfo -> Prop
  holds : NodeInfo -> U160 -> Prop

namespace Keyspace

variable (keyspace : Keyspace)

/-- The node does not carry the id of a member without being that member. -/
def Genuine (node : NodeInfo) : Prop := forall member, keyspace.members member -> node.id = member.id -> node = member

/-- A member above the node that the node names. -/
def Leads (node higher : NodeInfo) : Prop :=
  keyspace.members higher ∧ keyspace.names node higher ∧ node.id < higher.id

/-- The two answers of a member report all that it names and all that it holds. -/
def Answers (node : NodeInfo) (sampling finding : Option Response) : Prop :=
  (forall higher, keyspace.Leads node higher -> higher ∈ (queryOne node sampling finding).2.1) ∧
  forall hash, keyspace.holds node hash -> hash ∈ (queryOne node sampling finding).2.2.getD []

/-- The answers of members satisfy the property. -/
def Heeds (answers : NodeInfo -> Option Response -> Option Response -> Prop) (sweep : Sweep) : SweepAction -> Prop
  | .finish task sampling finding => forall node, sweep.tasks[task]? = some node -> keyspace.members node ->
      answers node sampling finding
  | _ => True

/-- Members answer as they should, and nobody reports a false member. -/
def Tells (crypto : Crypto) (chance : Chance) (sweep : Sweep) (action : SweepAction) : Prop :=
  Sweep.Reports crypto chance keyspace.Genuine sweep action ∧ keyspace.Heeds keyspace.Answers sweep action

end Keyspace

theorem queryOne_target (node : NodeInfo) (sampling finding : Option Response) :
    (queryOne node sampling finding).1 = node.id := by
  unfold queryOne
  split
  · rfl
  · split <;> rfl

namespace Sweep

variable {keyspace : Keyspace} {crypto : Crypto} {chance : Chance} {self next : Sweep} {node : NodeInfo}

/-- The id of the node is queued, or the loop is about to queue it. -/
def Noted (self : Sweep) (asked higher : NodeInfo) : Prop :=
  higher.id ∈ self.queried ∨ Exists fun nodes => self.loop = .received asked.id nodes ∧ higher ∈ nodes

structure Covering (keyspace : Keyspace) (sweep : Sweep) : Prop extends Informed keyspace.Genuine sweep where
  genuine : forall node, node ∈ sweep.queued -> keyspace.Genuine node
  queried : forall id, id ∈ sweep.queried -> Exists fun node => node ∈ sweep.queued ∧ node.id = id
  waiting : forall node, node ∈ sweep.toSend.items -> node ∈ sweep.queued
  asking : forall node, node ∈ sweep.tasks -> node ∈ sweep.queued
  asked : forall node, node ∈ sweep.asked -> node ∈ sweep.queued
  noted : forall node, node ∈ sweep.asked -> keyspace.members node ->
    forall higher, keyspace.Leads node higher -> sweep.Noted node higher
  sent : forall node, node ∈ sweep.asked -> keyspace.members node -> forall hash, keyspace.holds node hash ->
    hash ∈ sweep.tx

/-! ## Adding to the queue -/

theorem queried_offer (self : Sweep) (node : NodeInfo) : (self.offer node).queried = insert node.id self.queried := by
  by_cases known : node.id ∈ self.queried
  · rw [offer_known known, Finset.insert_eq_self.mpr known]
  · rw [offer_new known]

theorem queried_addToSendQueue (self : Sweep) (target id : U160) (nodes : List NodeInfo) :
    id ∈ (self.addToSendQueue target nodes).queried <->
      id ∈ self.queried ∨ Exists fun node => node ∈ nodes ∧ target < node.id ∧ node.id = id := by
  have fold : forall (offered : List NodeInfo) (self : Sweep),
      id ∈ (offered.foldl offer self).queried <-> id ∈ self.queried ∨ id ∈ offered.map NodeInfo.id := by
    intro offered
    induction offered with
    | nil => simp
    | cons node rest ih =>
        intro self
        rw [List.foldl_cons, ih, queried_offer, Finset.mem_insert, List.map_cons, List.mem_cons]
        tauto
  rw [addToSendQueue, fold]
  simp only [List.mem_map, List.mem_filter, decide_eq_true_eq, and_assoc]

theorem mem_queued_offer (self : Sweep) (added : NodeInfo) (queued : node ∈ self.queued) :
    node ∈ (self.offer added).queued := by
  by_cases known : added.id ∈ self.queried
  · rwa [offer_known known]
  · rw [offer_new known]
    change node ∈ (if (self.toSend.insert added).2 then self.queued ++ [added] else self.queued)
    split
    · exact List.mem_append_left _ queued
    · exact queued

/-- A genuine node may be offered at any time.  If it is not taken although its id is
new, the queue has it already. -/
theorem Covering.offer (covering : Covering keyspace self) (genuine : keyspace.Genuine node) :
    Covering keyspace (self.offer node) := by
  by_cases known : node.id ∈ self.queried
  · rw [offer_known known]
    exact covering
  · have old : forall other, other ∈ self.queued -> other ∈ (self.offer node).queued := by
      intro other member
      rw [offer_new known]
      change other ∈ (if (self.toSend.insert node).2 then self.queued ++ [node] else self.queued)
      split
      · exact List.mem_append_left _ member
      · exact member
    have new : node ∈ (self.offer node).queued := by
      cases taken : (self.toSend.insert node).2 with
      | true =>
          rw [offer_new known]
          change node ∈ (if (self.toSend.insert node).2 then self.queued ++ [node] else self.queued)
          rw [taken, if_pos rfl]
          exact List.mem_append_right _ List.mem_cons_self
      | false =>
          rcases OrderedSet.mem_insert.mp (mem_toSend_insert self.toSend node) with before | ⟨_, absent⟩
          · exact old node (covering.waiting node before)
          · rw [absent] at taken
            cases taken
    have sources : forall other, other ∈ (self.offer node).queued -> other ∈ self.queued ∨ other = node := by
      intro other member
      rw [offer_new known] at member
      change other ∈ (if (self.toSend.insert node).2 then self.queued ++ [node] else self.queued) at member
      split at member
      · exact (List.mem_append.mp member).imp_right List.mem_singleton.mp
      · exact Or.inl member
    have tasks := sameTasks_offer self node
    exact {
      reported := fun target nodes received => covering.reported target nodes (tasks.loop ▸ received)
      found := by
        rw [offer_new known]
        exact covering.found
      genuine := by
        intro other member
        rcases sources other member with before | rfl
        · exact covering.genuine other before
        · exact genuine
      queried := by
        intro id member
        rw [queried_offer, Finset.mem_insert] at member
        rcases member with rfl | before
        · exact ⟨node, new, rfl⟩
        · rcases covering.queried id before with ⟨other, inside, same⟩
          exact ⟨other, old other inside, same⟩
      waiting := by
        intro other member
        rw [offer_new known] at member
        rcases OrderedSet.mem_insert.mp member with before | ⟨rfl, _⟩
        · exact old other (covering.waiting other before)
        · exact new
      asking := fun other member => old other (covering.asking other (tasks.tasks ▸ member))
      asked := fun other member => old other (covering.asked other (tasks.asked ▸ member))
      noted := by
        intro other member isMember higher leads
        have noted := covering.noted other (tasks.asked ▸ member) isMember higher leads
        refine noted.imp (fun before => ?_) fun ⟨nodes, received, inside⟩ => ?_
        · rw [queried_offer]
          exact Finset.mem_insert_of_mem before
        · exact ⟨nodes, tasks.loop ▸ received, inside⟩
      sent := by
        rw [offer_new known]
        exact covering.sent }

theorem Covering.addToSendQueue (covering : Covering keyspace self) {nodes : List NodeInfo}
    (genuine : forall node, node ∈ nodes -> keyspace.Genuine node) (target : U160) :
    Covering keyspace (self.addToSendQueue target nodes) := by
  unfold Sweep.addToSendQueue
  have offered : forall node, node ∈ nodes.filter (fun n => target < n.id) -> keyspace.Genuine node :=
    fun node member => genuine node (List.mem_of_mem_filter member)
  generalize nodes.filter (fun n => target < n.id) = offers at offered
  induction offers generalizing self with
  | nil => exact covering
  | cons node rest ih =>
      exact ih (covering.offer (offered node List.mem_cons_self))
        fun other member => offered other (List.mem_cons_of_mem _ member)

theorem Covering.queryNext (covering : Covering keyspace self) : Covering keyspace self.queryNext := by
  unfold Sweep.queryNext
  cases popped : self.toSend.popFirst with
  | none => exact covering
  | some pair =>
      rcases pair with ⟨first, toSend⟩
      have items := OrderedSet.popFirst_eq_some popped
      refine { covering with waiting := fun other member => ?_, asking := fun other member => ?_ }
      · exact covering.waiting other (items ▸ List.mem_cons_of_mem _ member)
      · rcases List.mem_append.mp member with before | last
        · exact covering.asking other before
        · rw [List.mem_singleton] at last
          exact covering.waiting other (items ▸ last ▸ List.mem_cons_self)

theorem mem_queued_addToSendQueue (self : Sweep) (target : U160) (nodes : List NodeInfo) (queued : node ∈ self.queued) :
    node ∈ (self.addToSendQueue target nodes).queued := by
  unfold addToSendQueue
  induction nodes.filter (fun n => target < n.id) generalizing self with
  | nil => exact queued
  | cons added rest ih => exact ih (self.offer added) (mem_queued_offer self added queued)

theorem queued_queryNext (self : Sweep) : self.queryNext.queued = self.queued := by
  rcases queryNext_eq self with ⟨toSend, tasks, same, _⟩
  rw [same]

theorem mem_queued_step {action : SweepAction} (stepped : step crypto chance self action = some next)
    (queued : node ∈ self.queued) : node ∈ next.queued := by
  cases moved_step stepped with
  | ended here found => exact queued
  | looked here => exact queued
  | added here => exact mem_queued_addToSendQueue _ _ _ queued
  | decided here handle => exact queued
  | popped here => exact (queued_queryNext self).symm ▸ queued
  | refilled here => exact mem_queued_addToSendQueue _ _ _ queued
  | staged elsewhere handle => exact queued

theorem mem_queued_start (lowest highest : List NodeInfo) (among : node ∈ lowest ++ highest) :
    node ∈ (start lowest highest).queued := by
  unfold start
  generalize 200 = travellers
  induction travellers with
  | zero => exact among
  | succ count ih =>
      rw [Function.iterate_succ_apply', queued_queryNext]
      exact ih

/-! ## One step -/

/-- Where the loop has no answer in hand, all members that an asked one names are queued. -/
theorem Covering.noted_queried (covering : Covering keyspace self)
    (idle : forall target nodes, self.loop = .received target nodes -> nodes = []) {node higher : NodeInfo}
    (asked : node ∈ self.asked) (isMember : keyspace.members node) (leads : keyspace.Leads node higher) :
    higher.id ∈ self.queried := by
  rcases covering.noted node asked isMember higher leads with queried | ⟨nodes, received, inside⟩
  · exact queried
  · rw [idle _ _ received] at inside
    exact absurd inside List.not_mem_nil

theorem Covering.step {action : SweepAction} (covering : Covering keyspace self)
    (tells : keyspace.Tells crypto chance self action) (stepped : Sweep.step crypto chance self action = some next) :
    Covering keyspace next := by
  have informed := covering.toInformed.step tells.1 stepped
  cases moved_step stepped with
  | @ended task sampling finding node here there =>
      have idle : forall target nodes, self.loop = .received target nodes -> nodes = [] := by
        intro target nodes received
        cases here.symm.trans received
      have answers := tells.2 node there
      have queued := covering.asking node (List.mem_of_getElem? there)
      refine { covering with
        toInformed := informed
        asking := fun other member => covering.asking other (List.mem_of_mem_eraseIdx member)
        asked := fun other member => ?_
        noted := fun other member isMember higher leads => ?_
        sent := fun other member isMember hash holds => ?_ }
      · rcases List.mem_append.mp member with before | last
        · exact covering.asked other before
        · exact List.mem_singleton.mp last ▸ queued
      · rcases List.mem_append.mp member with before | last
        · exact Or.inl (covering.noted_queried idle before isMember leads)
        · rw [List.mem_singleton] at last
          subst last
          exact Or.inr ⟨_, by rw [queryOne_target], (answers isMember).1 higher leads⟩
      · rcases List.mem_append.mp member with before | last
        · exact List.mem_append_left _ (covering.sent other before isMember hash holds)
        · rw [List.mem_singleton] at last
          subst last
          exact List.mem_append_right _ ((answers isMember).2 hash holds)
  | @looked target here =>
      refine { covering with toInformed := informed, noted := fun other member isMember higher leads => ?_ }
      refine Or.inl (covering.noted_queried (fun other nodes received => ?_) member isMember leads)
      cases here.symm.trans received
      rfl
  | @added target nodes here =>
      have adding := covering.addToSendQueue (covering.reported target nodes here) target
      refine { adding with toInformed := informed, noted := fun other member isMember higher leads => ?_ }
      have asked := (sameTasks_addToSendQueue self target nodes).asked ▸ member
      refine Or.inl ((queried_addToSendQueue self target higher.id nodes).mpr ?_)
      refine (covering.noted other asked isMember higher leads).imp_right fun ⟨others, received, inside⟩ => ?_
      cases here.symm.trans received
      exact ⟨higher, inside, leads.2.2, rfl⟩
  | @decided target largeGap here handle =>
      refine { covering with toInformed := informed, noted := fun other member isMember higher leads => ?_ }
      refine Or.inl (covering.noted_queried (fun other nodes received => ?_) member isMember leads)
      cases here.symm.trans received
  | popped here =>
      have asking := covering.queryNext
      have fields : self.queryNext.queried = self.queried ∧ self.queryNext.asked = self.asked := by
        rcases queryNext_eq self with ⟨toSend, tasks, same, _⟩
        rw [same]
        exact ⟨rfl, rfl⟩
      refine { asking with toInformed := informed, noted := fun other member isMember higher leads => ?_ }
      have known := covering.noted_queried (fun other nodes received => by cases here.symm.trans received)
        (fields.2 ▸ member) isMember leads
      exact Or.inl (fields.1.symm ▸ known)
  | @refilled network target nodes here =>
      exact { covering.addToSendQueue (covering.found target nodes here) target with toInformed := informed }
  | staged elsewhere handle => exact { covering with toInformed := informed }

theorem covering_start (lowest highest : List NodeInfo)
    (genuine : forall node, node ∈ lowest ++ highest -> keyspace.Genuine node) :
    Covering keyspace (start lowest highest) := by
  have initially : Covering keyspace (initial lowest highest) :=
    { genuine := genuine
      reported := fun target nodes received => by cases received
      found := fun target nodes adding => by cases adding
      queried := fun id member => List.mem_map.mp (List.mem_toFinset.mp member)
      waiting := fun node member => (mem_initial lowest highest node).mp member
      asking := fun node member => absurd member List.not_mem_nil
      asked := fun node member => absurd member List.not_mem_nil
      noted := fun node member => absurd member List.not_mem_nil
      sent := fun node member => absurd member List.not_mem_nil }
  unfold start
  generalize 200 = travellers
  induction travellers with
  | zero => exact initially
  | succ count ih =>
      rw [Function.iterate_succ_apply']
      exact ih.queryNext

/-- At the end, all that the named nodes lead up to was asked. -/
theorem Covering.reached {lowest highest : List NodeInfo} {actions : List SweepAction} {final : Sweep}
    (covering : Covering keyspace final) (ran : Sweep.run crypto chance lowest highest actions = some final)
    (returned : final.Returned) (drained : final.toSend.items = []) {first member : NodeInfo}
    (among : first ∈ lowest ++ highest) (isMember : keyspace.members first)
    (leadsUp : Relation.ReflTransGen keyspace.Leads first member) :
    keyspace.members member ∧ member ∈ final.asked := by
  have allAsked : forall node, node ∈ final.queued -> node ∈ final.asked := by
    intro node queued
    rcases Accounted.run ran node queued with waiting | asking | asked
    · rw [drained] at waiting
      exact absurd waiting List.not_mem_nil
    · rw [returned.2] at asking
      exact absurd asking List.not_mem_nil
    · exact asked
  have idle : forall target nodes, final.loop = .received target nodes -> nodes = [] := by
    intro target nodes received
    cases returned.1.symm.trans received
  induction leadsUp with
  | refl =>
      refine ⟨isMember, allAsked first ?_⟩
      exact PartialRun.run_invariant (fun _ _ _ queued stepped => mem_queued_step stepped queued)
        (mem_queued_start lowest highest among) ran
  | tail _ leads before =>
      rcases covering.queried _ (covering.noted_queried idle before.2 before.1 leads) with ⟨other, queued, same⟩
      have one := covering.genuine other queued _ leads.1 same
      exact ⟨leads.1, one ▸ allAsked other queued⟩

theorem covering_run {lowest highest : List NodeInfo} {actions : List SweepAction} {final : Sweep}
    (genuine : forall node, node ∈ lowest ++ highest -> keyspace.Genuine node)
    (ran : Sweep.run crypto chance lowest highest actions = some final)
    (told : PartialRun.Permitted (Sweep.step crypto chance) (keyspace.Tells crypto chance) (start lowest highest)
      actions) : Covering keyspace final :=
  PartialRun.run_invariant_of_permitted (fun _ _ _ covering tells stepped => Covering.step covering tells stepped)
    (covering_start lowest highest genuine) told ran

end Sweep

/-- When the sweep returns with an empty queue, every member that the named nodes lead
up to from the first queue was asked, and whatever it holds was sent on. -/
theorem sweep_covers (keyspace : Keyspace) (crypto : Crypto) (chance : Chance) (lowest highest : List NodeInfo)
    (genuine : forall node, node ∈ lowest ++ highest -> keyspace.Genuine node) (actions : List SweepAction)
    (final : Sweep) (ran : Sweep.run crypto chance lowest highest actions = some final)
    (told : PartialRun.Permitted (Sweep.step crypto chance) (keyspace.Tells crypto chance)
      (Sweep.start lowest highest) actions)
    (returned : final.Returned) (drained : final.toSend.items = []) (first member : NodeInfo)
    (among : first ∈ lowest ++ highest) (isMember : keyspace.members first)
    (leadsUp : Relation.ReflTransGen keyspace.Leads first member) :
    member ∈ final.asked ∧ forall hash, keyspace.holds member hash -> hash ∈ final.tx := by
  have covering := Sweep.covering_run genuine ran told
  have reached := covering.reached ran returned drained among isMember leadsUp
  exact ⟨reached.2, covering.sent member reached.2 reached.1⟩

namespace SampleSweep

/-- Two members, of which the lower one names the other, and both hold a hash. -/
def keyspace : Keyspace where
  members := fun member => member = SampleSearch.node 0 ∨ member = SampleSearch.node 1
  names := fun node higher => node = SampleSearch.node 0 ∧ higher = SampleSearch.node 1
  holds := fun node hash => hash = node.id

theorem genuine_member {node : NodeInfo} (isMember : keyspace.members node) : keyspace.Genuine node := by
  have apart : (SampleSearch.node 0).id ≠ (SampleSearch.node 1).id := by decide +kernel
  intro member other same
  rcases isMember with rfl | rfl <;> rcases other with rfl | rfl
  · rfl
  · exact absurd same apart
  · exact absurd same.symm apart
  · rfl

theorem tells_climb : PartialRun.Permitted (Sweep.step SampleSearch.config.crypto SampleSearch.config.chance)
    (keyspace.Tells SampleSearch.config.crypto SampleSearch.config.chance) (Sweep.start [SampleSearch.node 0] []) climb := by
  apply permitted_climb
  · exact fun sweep => ⟨trivial, trivial⟩
  · intro sweep tasks
    refine ⟨fun node own reported inside => ?_, fun node own isMember => ?_⟩
    · rw [tasks] at own
      cases own
      exact genuine_member (Or.inr (List.mem_singleton.mp inside))
    · rw [tasks] at own
      cases own
      exact ⟨fun higher leads => List.mem_singleton.mpr leads.2.1.2, fun hash holds => List.mem_singleton.mpr holds⟩
  · intro sweep tasks
    refine ⟨fun node own reported inside => ?_, fun node own isMember => ?_⟩
    · rw [tasks] at own
      cases own
      exact absurd inside List.not_mem_nil
    · rw [tasks] at own
      cases own
      exact ⟨fun higher leads => absurd leads.2.1.1 (by decide +kernel), fun hash holds => List.mem_singleton.mpr holds⟩

end SampleSweep

open SampleSweep in
/-- The sweep starts from the lower member. -/
theorem sweep_covers_two : Exists fun final =>
    Sweep.run SampleSearch.config.crypto SampleSearch.config.chance [SampleSearch.node 0] [] climb = some final ∧
    SampleSearch.node 1 ∈ final.asked ∧ (SampleSearch.node 1).id ∈ final.tx := by
  rcases Option.map_eq_some_iff.mp climb_ends with ⟨final, ran, fields⟩
  rcases Prod.mk.inj fields with ⟨waiting, rest⟩
  rcases Prod.mk.inj rest with ⟨idle, drained⟩
  have leads : keyspace.Leads (SampleSearch.node 0) (SampleSearch.node 1) :=
    ⟨Or.inr rfl, ⟨rfl, rfl⟩, by decide +kernel⟩
  have covered := sweep_covers keyspace SampleSearch.config.crypto SampleSearch.config.chance [SampleSearch.node 0] []
    (fun node member => genuine_member (Or.inl (List.mem_singleton.mp member))) climb final ran tells_climb
    ⟨waiting, idle⟩ drained (SampleSearch.node 0) (SampleSearch.node 1) List.mem_cons_self (Or.inl rfl) (.single leads)
  exact ⟨final, ran, covered.1, covered.2 _ rfl⟩

end DhtExplorer
