import DhtExplorer.Library.OrderedGroups
import DhtExplorer.Lookup

namespace DhtExplorer

/-!
# In which order a lookup lists contacts

A lookup visits one bucket after the other: those behind a bucket come before it
when the id does not belong there, and after it otherwise.  Every bucket visited is
nearer to the id than all later ones.  A table that was only added to is split no
further than it is filled, so the answer is the first contacts in this order.

Inside a bucket the contacts stand in the order in which they were heard of.  So the
answer has the nearest contacts exactly when the bucket that is cut has them in front.
-/

namespace Bucket

/-- The buckets in the order in which a lookup takes from them. -/
def visited : Chain -> U160 -> Chain
  | [], _ => []
  | self :: next, id => if self.idBelongsHere id then self :: visited next id else visited next id ++ [self]

/-- The contacts that a lookup can return, in its order. -/
def visitedNodes (chain : Chain) (id : U160) : List (List NodeInfo) := (visited chain id).map Bucket.nodes

/-- A bucket has a successor only where the two hold at least so many contacts. -/
def Saturated (room : Nat) : Chain -> Prop
  | [] => True
  | self :: next => (next ≠ [] -> room ≤ (stored (self :: next)).length) ∧ Saturated room next

/-- How far a contact is from the id that is looked up. -/
def distanceTo (target : U160) (node : NodeInfo) : U160 := target.distance node.id

/-- Two contacts are stored in one bucket. -/
def SameBucket (table : Chain) (first second : NodeInfo) : Prop :=
  Exists fun bucket => bucket ∈ table ∧ first ∈ bucket.nodes ∧ second ∈ bucket.nodes

/-- No stored contact that is left out is closer than one in the answer. -/
def Nearest (table : Chain) (target : U160) (nodes : List NodeInfo) : Prop :=
  forall out, out ∈ stored table -> out ∉ nodes -> forall node, node ∈ nodes ->
    ¬distanceTo target out < distanceTo target node

/-- In every bucket, the contacts that the answer has room for are at least as close
as the others. -/
def CutsNearest (kSize : UInt8) (table : Chain) (target : U160) : Prop :=
  OrderedGroups.CutsNearest (distanceTo target) kSize.toNat (visitedNodes table target)

variable {self : Bucket} {next chain : Chain} {id : U160}

theorem visited_perm (chain : Chain) (id : U160) : (visited chain id).Perm chain := by
  induction chain with
  | nil => exact List.Perm.refl _
  | cons self next ih =>
      rw [visited]
      split
      · exact ih.cons self
      · exact (List.perm_append_singleton self _).trans (ih.cons self)

theorem flatten_visitedNodes (chain : Chain) (id : U160) :
    (visitedNodes chain id).flatten = stored (visited chain id) := List.flatMap_def.symm

theorem stored_visited_perm (chain : Chain) (id : U160) : (stored (visited chain id)).Perm (stored chain) :=
  (visited_perm chain id).flatMap_right Bucket.nodes

theorem together_iff {first second : NodeInfo} :
    OrderedGroups.Together (visitedNodes chain id) first second <-> SameBucket chain first second := by
  constructor
  · rintro ⟨nodes, member, here, there⟩
    rcases List.mem_map.mp member with ⟨bucket, visited, rfl⟩
    exact ⟨bucket, (visited_perm chain id).mem_iff.mp visited, here, there⟩
  · rintro ⟨bucket, member, here, there⟩
    exact ⟨bucket.nodes, List.mem_map_of_mem ((visited_perm chain id).mem_iff.mpr member), here, there⟩

theorem stored_append (front back : Chain) : stored (front ++ back) = stored front ++ stored back :=
  List.flatMap_append

end Bucket

variable {own : U160} {kSize : UInt8} {depth : Nat} {self : Bucket} {next chain chain' : Chain} {node : NodeInfo}
  {id target : U160}

/-! ## Buckets and distances -/

/-- The contacts of a bucket and those behind it are apart for every id: the ones on
its side of the bucket's bit are closer. -/
theorem before_of_split (placed : Placed own kSize depth self)
    (differs : forall node, node ∈ self.nodes -> own.getBit depth ≠ node.id.getBit depth)
    (behind : Live own kSize (depth + 1) next) {here there : NodeInfo} (hereMember : here ∈ self.nodes)
    (thereMember : there ∈ Bucket.stored next) :
    (self.idBelongsHere target = true -> Bucket.distanceTo target here < Bucket.distanceTo target there) ∧
      (self.idBelongsHere target = false -> Bucket.distanceTo target there < Bucket.distanceTo target here) := by
  have hereDiffers := differs here hereMember
  have thereSame := behind.shares there thereMember depth (Nat.lt_succ_self depth)
  have agree : forall index, index < depth -> here.id.getBit index = there.id.getBit index := by
    intro index bound
    have hereShares := placed.shares here hereMember index bound
    exact hereShares.symm.trans (behind.shares there thereMember index (Nat.lt_succ_of_lt bound))
  constructor
  · intro belongs
    have targetDiffers := placed.idBelongsHere_iff.mp belongs
    have sameSide : target.getBit depth = here.id.getBit depth := by
      revert hereDiffers targetDiffers
      cases own.getBit depth <;> cases target.getBit depth <;> cases here.id.getBit depth <;> decide
    exact U160.distance_lt agree sameSide (thereSame ▸ targetDiffers.symm)
  · intro passes
    have targetSame : own.getBit depth = target.getBit depth := by
      by_contra targetDiffers
      rw [placed.idBelongsHere_iff.mpr targetDiffers] at passes
      cases passes
    exact U160.distance_lt (fun index bound => (agree index bound).symm) (targetSame.symm.trans thereSame)
      (targetSame ▸ hereDiffers)

/-- Every bucket that is visited is nearer than all later ones. -/
theorem visited_ordered (live : Live own kSize depth chain) (target : U160) :
    OrderedGroups.Ordered (Bucket.distanceTo target) (Bucket.visitedNodes chain target) := by
  induction live with
  | last placed =>
      rw [Bucket.visitedNodes, Bucket.visited]
      split <;> exact List.pairwise_singleton _ _
  | @split depth self next placed differs behind ih =>
      have later : forall nodes, nodes ∈ Bucket.visitedNodes next target -> forall node, node ∈ nodes ->
          node ∈ Bucket.stored next := by
        intro nodes member node inside
        apply (Bucket.stored_visited_perm next target).mem_iff.mp
        rw [<- Bucket.flatten_visitedNodes]
        exact List.mem_flatten.mpr ⟨nodes, member, inside⟩
      rw [Bucket.visitedNodes, Bucket.visited]
      cases belongs : self.idBelongsHere target with
      | true =>
          rw [if_pos rfl, List.map_cons]
          apply List.Pairwise.cons _ ih
          intro nodes member here hereMember there thereMember
          exact (before_of_split placed differs behind hereMember (later nodes member there thereMember)).1 belongs
      | false =>
          rw [if_neg Bool.false_ne_true, List.map_append]
          apply List.pairwise_append.mpr
          refine ⟨ih, List.pairwise_singleton _ _, ?_⟩
          intro nodes member last lastMember there thereMember here hereMember
          rw [List.mem_singleton.mp lastMember] at hereMember
          exact (before_of_split placed differs behind hereMember (later nodes member there thereMember)).2 belongs

/-! ## A table is split no further than it is filled -/

/-- No way through `add` loses a contact. -/
theorem Added.length_le (added : Added node chain chain') :
    (Bucket.stored chain).length ≤ (Bucket.stored chain').length := by
  have kept : forall self : Bucket, self.nodes.length ≤ (self.addOrUpdate node).nodes.length := by
    intro self
    rcases Bucket.addOrUpdate_cases self node with ⟨_, perm⟩ | ⟨_, _, appended⟩ | ⟨_, _, same⟩
    · exact Nat.le_of_eq perm.length_eq.symm
    · rw [appended, List.length_append]
      exact Nat.le_add_right _ _
    · rw [same]
  induction added with
  | @stored self room =>
      rw [Bucket.stored_cons, Bucket.stored_cons, List.length_append, List.length_append]
      exact Nat.add_le_add_right (kept self) _
  | refused deepest full => exact Nat.le_refl _
  | @here self next nonempty belongs =>
      rw [Bucket.stored_cons, Bucket.stored_cons, List.length_append, List.length_append]
      exact Nat.add_le_add_right (kept self) _
  | further nonempty leaves _ ih =>
      rw [Bucket.stored_cons, Bucket.stored_cons, List.length_append, List.length_append]
      exact Nat.add_le_add_left ih _
  | @split self chain' shallow full _ ih =>
      rw [<- self.stored_divided.length_eq]
      exact ih

theorem Added.saturated (added : Added node chain chain') (live : Live own kSize depth chain)
    (saturated : Bucket.Saturated kSize.toNat chain) : Bucket.Saturated kSize.toNat chain' := by
  induction added generalizing depth with
  | stored room => exact ⟨fun nonempty => absurd rfl nonempty, trivial⟩
  | refused deepest full => exact saturated
  | @here self next nonempty belongs =>
      have more := (Added.here nonempty belongs).length_le
      exact ⟨fun _ => Nat.le_trans (saturated.1 nonempty) more, saturated.2⟩
  | @further self next next' nonempty leaves behind ih =>
      have more := (Added.further nonempty leaves behind).length_le
      exact ⟨fun _ => Nat.le_trans (saturated.1 nonempty) more, ih (live.uncons nonempty).2.2 saturated.2⟩
  | @split self chain' shallow full _ ih =>
      have placed := live.last_placed
      apply ih (placed.divided (placed.shallow shallow))
      -- The bucket that is split is full.
      have total : (Bucket.stored self.divided).length = kSize.toNat := by
        rw [self.stored_divided.length_eq, <- placed.kSize_eq, <- full, Bucket.stored_cons, Bucket.stored_nil,
          List.append_nil]
      exact ⟨fun _ => Nat.le_of_eq total.symm, fun nonempty => absurd rfl nonempty, trivial⟩

/-! ## The answer is the first contacts in this order -/

theorem lookup_eq_take (live : Live own kSize depth chain) (saturated : Bucket.Saturated kSize.toNat chain)
    (id : U160) :
    Bucket.lookup chain id = some ((Bucket.stored (Bucket.visited chain id)).take kSize.toNat) := by
  induction live with
  | @last depth self placed =>
      have alone : Bucket.visited [self] id = [self] := by
        rw [Bucket.visited]
        split <;> rfl
      rw [lookup_last placed, alone, Bucket.stored_cons, Bucket.stored_nil, List.append_nil,
        List.take_of_length_le placed.length_le]
  | @split depth self next placed differs behind ih =>
      have bound : ((Bucket.stored (Bucket.visited next id)).take kSize.toNat).length ≤ kSize.toNat :=
        List.length_take_le _ _
      rw [lookup_split placed behind.nonempty (ih saturated.2) bound, Bucket.visited]
      cases belongs : self.idBelongsHere id with
      | true =>
          have all : self.nodes.take kSize.toNat = self.nodes := List.take_of_length_le placed.length_le
          rw [if_pos rfl, if_pos rfl, Bucket.fill, List.length_nil, Nat.sub_zero, List.nil_append, all,
            Bucket.stored_cons, List.take_append, all, List.take_take, Nat.min_eq_left (Nat.sub_le _ _)]
      | false =>
          have enough := saturated.1 behind.nonempty
          rw [Bucket.stored_cons, List.length_append, <- (Bucket.stored_visited_perm next id).length_eq] at enough
          rw [if_neg Bool.false_ne_true, if_neg Bool.false_ne_true, Bucket.fill, Bucket.stored_append,
            Bucket.stored_cons, Bucket.stored_nil, List.append_nil]
          generalize Bucket.stored (Bucket.visited next id) = nearer at enough
          have room : kSize.toNat - (nearer.take kSize.toNat).length = kSize.toNat - nearer.length := by
            rw [List.length_take]
            omega
          -- The contacts behind and those here fill the answer, so nothing is asked for again.
          have filled : kSize.toNat -
              (nearer.take kSize.toNat ++ self.nodes.take (kSize.toNat - nearer.length)).length = 0 := by
            rw [List.length_append, List.length_take, List.length_take]
            omega
          rw [room, filled, List.take_zero, List.append_nil, List.take_append]

/-- What holds of a table that was only added to. -/
structure OnlyAdded (own : U160) (kSize : UInt8) (table : Chain) : Prop where
  live : Live own kSize 0 table
  saturated : Bucket.Saturated kSize.toNat table

theorem OnlyAdded.root (own : U160) (kSize : UInt8) : OnlyAdded own kSize (Bucket.root own kSize) where
  live := Live.root own kSize
  saturated := ⟨fun nonempty => absurd rfl nonempty, trivial⟩

theorem OnlyAdded.add {table : Chain} (before : OnlyAdded own kSize table) (node : NodeInfo) :
    Exists fun table' => Bucket.add table node = some table' ∧ OnlyAdded own kSize table' := by
  rcases add_spec before.live node with ⟨table', taken, _, live', _⟩
  exact ⟨table', taken, live', (before.live.added taken).saturated before.live before.saturated⟩

theorem onlyAdded_run (own : U160) (kSize : UInt8) (adds : List NodeInfo) :
    Exists fun table => PartialRun.run Bucket.add (Bucket.root own kSize) adds = some table ∧
      OnlyAdded own kSize table :=
  PartialRun.run_of_invariant (fun _ node before => before.add node) adds (OnlyAdded.root own kSize)

/-- The answer consists of the first contacts, in the order of visit. -/
theorem OnlyAdded.lookup {table : Chain} (onlyAdded : OnlyAdded own kSize table) (target : U160) :
    Bucket.lookup table target = some ((Bucket.visitedNodes table target).flatten.take kSize.toNat) := by
  rw [Bucket.flatten_visitedNodes]
  exact lookup_eq_take onlyAdded.live onlyAdded.saturated target

theorem OnlyAdded.mem_visitedNodes {table : Chain} (target : U160) :
    node ∈ (Bucket.visitedNodes table target).flatten <-> node ∈ Bucket.stored table := by
  rw [Bucket.flatten_visitedNodes]
  exact (Bucket.stored_visited_perm table target).mem_iff

/-- On every table that was only added to, a lookup returns the nearest contacts
exactly when every bucket has its nearest contacts in front of the cut. -/
theorem lookup_nearest_iff (own : U160) (kSize : UInt8) (adds : List NodeInfo) (target : U160) :
    Exists fun table => Exists fun nodes =>
      PartialRun.run Bucket.add (Bucket.root own kSize) adds = some table ∧
      Bucket.lookup table target = some nodes ∧
      (Bucket.Nearest table target nodes <-> Bucket.CutsNearest kSize table target) := by
  rcases onlyAdded_run own kSize adds with ⟨table, reached, onlyAdded⟩
  refine ⟨table, _, reached, onlyAdded.lookup target, ?_⟩
  have once : (Bucket.visitedNodes table target).flatten.Nodup := by
    rw [Bucket.flatten_visitedNodes]
    exact (Bucket.stored_visited_perm table target).nodup_iff.mpr onlyAdded.live.nodup_stored
  rw [Bucket.CutsNearest, <- (visited_ordered onlyAdded.live target).nearest_iff once, Bucket.Nearest]
  simp only [OnlyAdded.mem_visitedNodes]

/-- In every answer, contacts of different buckets stand in the order of their
distance, and what is left out elsewhere than in the last bucket that was taken from
is farther than the whole answer. -/
theorem lookup_bucket_order (own : U160) (kSize : UInt8) (adds : List NodeInfo) (target : U160) :
    Exists fun table => Exists fun nodes =>
      PartialRun.run Bucket.add (Bucket.root own kSize) adds = some table ∧
      Bucket.lookup table target = some nodes ∧
      (nodes.Pairwise fun first second => Bucket.SameBucket table first second ∨
        Bucket.distanceTo target first < Bucket.distanceTo target second) ∧
      forall last, nodes.getLast? = some last ->
        forall out, out ∈ Bucket.stored table -> out ∉ nodes -> ¬Bucket.SameBucket table last out ->
          forall node, node ∈ nodes -> Bucket.distanceTo target node < Bucket.distanceTo target out := by
  rcases onlyAdded_run own kSize adds with ⟨table, reached, onlyAdded⟩
  have ordered := visited_ordered onlyAdded.live target
  have split := (List.take_append_drop kSize.toNat (Bucket.visitedNodes table target).flatten).symm
  refine ⟨table, _, reached, onlyAdded.lookup target, ?_, ?_⟩
  · have pairs := ordered.flatten_pairwise
    rw [split] at pairs
    exact (List.pairwise_append.mp pairs).1.imp fun either => either.imp_left Bucket.together_iff.mp
  · intro last ends out outStored left apart
    have outMember := (OnlyAdded.mem_visitedNodes target).mpr outStored
    rw [split] at outMember
    have outLater := (List.mem_append.mp outMember).resolve_left left
    exact ordered.left_out split ends outLater fun together => apart (Bucket.together_iff.mp together)

namespace CutInRecencyOrder

def addr : SocketAddr := .v4 0x7f000001 1337

/-- The bucket of these two is cut after its first contact. -/
def farther : NodeInfo := ⟨.new 0xc0000000000000000000000000000000 0, addr⟩
def closer : NodeInfo := ⟨.new 0x80000000000000000000000000000000 0, addr⟩

/-- Splits the first bucket, and is closest to the target. -/
def closest : NodeInfo := ⟨.new 0x40000000000000000000000000000000 0, addr⟩

end CutInRecencyOrder

open CutInRecencyOrder in
/-- The farther contact is returned, since it was heard of first. -/
theorem closer_contact_left_out :
    Exists fun table => PartialRun.run Bucket.add (Bucket.root .min 2) [farther, closer, closest] = some table ∧
      Bucket.lookup table .min = some [closest, farther] ∧ closer ∈ Bucket.stored table ∧
      ¬Bucket.Nearest table .min [closest, farther] := by
  have run : (PartialRun.run Bucket.add (Bucket.root .min 2) [farther, closer, closest]).map
      (fun table => (Bucket.lookup table .min, Bucket.stored table)) =
      some (some [closest, farther], [farther, closer, closest]) := by
    decide +kernel
  rcases Option.map_eq_some_iff.mp run with ⟨table, reached, outcome⟩
  rcases Prod.mk.inj outcome with ⟨found, stored⟩
  have member : closer ∈ Bucket.stored table := stored ▸ List.mem_cons_of_mem _ List.mem_cons_self
  refine ⟨table, reached, found, member, fun nearest => ?_⟩
  exact nearest closer member (by decide) farther (List.mem_cons_of_mem _ List.mem_cons_self) (by decide +kernel)

end DhtExplorer
