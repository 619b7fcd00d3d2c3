import DhtExplorer.Lookup

namespace DhtExplorer

/-!
# A lookup step by step

A call of `lookup` reads one bucket at a time.  It calls itself on the next bucket
before and after it has read its own, so it is a stack of calls, which is cut at every
point where another task can be scheduled.

Alone it returns what the recursion returns.  As it may ask the next bucket twice in
every bucket, the steps double with each bucket that has nothing behind it, and a few
calls make a table of any depth with nothing in it.
-/

/-- The next step of a call of `lookup`, or what it waits for. -/
inductive LookupStage where
  | enter
  | nearest
  | fill (kNearest : List NodeInfo)
  | recheck (kNearest : List NodeInfo)
  | behind (kNearest : List NodeInfo) (gap : Nat)
  | leave (kNearest : List NodeInfo)
deriving DecidableEq, Repr

/-- A call of `lookup` on the bucket at the given depth. -/
structure LookupFrame where
  depth : Nat
  stage : LookupStage
deriving DecidableEq, Repr

namespace LookupFrame

/-- What a call does with the answer from the next bucket. -/
def resume (nodes : List NodeInfo) (frame : LookupFrame) : LookupFrame :=
  match frame.stage with
  | .nearest => { frame with stage := .fill nodes }
  | .behind kNearest gap => { frame with stage := .leave (kNearest ++ nodes.take gap) }
  | _ => frame

/-- One step inside a bucket.  There is no step while a redistribution holds the lock
of the bucket that is read, and none where the source panics. -/
def advance (table : Chain) (locked : Nat -> Bool) (id : U160) (frame : LookupFrame) : Option (List LookupFrame) :=
  match table[frame.depth]? with
  | none => none
  | some self =>
      let hasNext := decide (frame.depth + 1 < table.length)
      match frame.stage with
      | .enter =>
          if hasNext && !self.idBelongsHere id then some [⟨frame.depth + 1, .enter⟩, { frame with stage := .nearest }]
          else some [{ frame with stage := .fill [] }]
      | .fill kNearest =>
          if self.kSize.toNat < kNearest.length then none
          else
            let gap := self.kSize.toNat - kNearest.length
            if 0 < gap then
              if locked frame.depth then none
              else some [{ frame with stage := .recheck (kNearest ++ self.nodes.take gap) }]
            else some [{ frame with stage := .recheck kNearest }]
      | .recheck kNearest =>
          if self.kSize.toNat < kNearest.length then none
          else
            let gap := self.kSize.toNat - kNearest.length
            if 0 < gap && hasNext then some [⟨frame.depth + 1, .enter⟩, { frame with stage := .behind kNearest gap }]
            else some [{ frame with stage := .leave kNearest }]
      | .nearest | .behind _ _ | .leave _ => none

end LookupFrame

/-- The stack of a lookup, top first, and its result once the stack is empty. -/
structure LookupCall where
  id : U160
  frames : List LookupFrame
  result : Option (List NodeInfo)
deriving DecidableEq, Repr

namespace LookupCall

def start (id : U160) : LookupCall := ⟨id, [⟨0, .enter⟩], none⟩

/-- The topmost call returns to the others. -/
def give (self : LookupCall) (nodes : List NodeInfo) : List LookupFrame -> LookupCall
  | [] => { self with frames := [], result := some nodes }
  | caller :: callers => { self with frames := caller.resume nodes :: callers }

def advance (table : Chain) (locked : Nat -> Bool) (self : LookupCall) : Option LookupCall :=
  match self.frames with
  | [] => none
  | frame :: callers =>
      match frame.stage with
      | .leave nodes => some (self.give nodes callers)
      | _ => (frame.advance table locked self.id).map fun frames => { self with frames := frames ++ callers }

/-- The given number of steps on a table that nobody changes. -/
def alone (table : Chain) (self : LookupCall) (steps : Nat) : Option LookupCall :=
  PartialRun.run (fun call (_ : Unit) => advance table (fun _ => false) call) self (List.replicate steps ())

end LookupCall

namespace Bucket

/-- What a lookup has after it has read its own bucket. -/
def filled (self : Bucket) (front : List NodeInfo) : List NodeInfo :=
  front ++ self.nodes.take (self.kSize.toNat - front.length)

/-- The next bucket is asked before this one is read. -/
def asksFirst (self : Bucket) (next : Chain) (id : U160) : Bool := !next.isEmpty && !self.idBelongsHere id

/-- What the next bucket has answered before this one is read. -/
def front (self : Bucket) (next : Chain) (id : U160) : List NodeInfo :=
  if self.asksFirst next id then (lookup next id).getD [] else []

/-- The next bucket is asked after this one is read. -/
def asksAgain (self : Bucket) (next : Chain) (id : U160) : Bool :=
  decide (0 < self.kSize.toNat - (self.filled (self.front next id)).length) && !next.isEmpty

/-- The steps of a lookup that runs alone. -/
def lookupSteps : Chain -> U160 -> Nat
  | [], _ => 0
  | self :: next, id =>
      4 + (if self.asksFirst next id then lookupSteps next id else 0) +
        (if self.asksAgain next id then lookupSteps next id else 0)

variable {self : Bucket} {next : Chain} {id : U160} {nodes : List NodeInfo}

theorem length_filled_le {front : List NodeInfo} (fits : front.length ≤ self.kSize.toNat) :
    (self.filled front).length ≤ self.kSize.toNat := by
  have taken := List.length_take_le (self.kSize.toNat - front.length) self.nodes
  rw [filled, List.length_append]
  omega

/-- The recursion in the order of its reads. -/
theorem lookup_cons_eq_some (found : lookup (self :: next) id = some nodes) :
    (self.asksFirst next id = true -> lookup next id = some (self.front next id)) ∧
      (self.front next id).length ≤ self.kSize.toNat ∧
      (self.asksAgain next id = false -> nodes = self.filled (self.front next id)) ∧
      (self.asksAgain next id = true -> Exists fun behind => lookup next id = some behind ∧
        nodes = self.filled (self.front next id) ++
          behind.take (self.kSize.toNat - (self.filled (self.front next id)).length)) := by
  have guarded : forall front : List NodeInfo,
      (if 0 < self.kSize.toNat - front.length then front ++ self.nodes.take (self.kSize.toNat - front.length) else front) =
        self.filled front := by
    intro front
    rw [filled]
    split
    · rfl
    · rename_i full
      rw [Nat.eq_zero_of_not_pos full, List.take_zero, List.append_nil]
  have first : Exists fun front => (if self.asksFirst next id then lookup next id else some []) = some front ∧
      (if self.kSize.toNat < front.length then none
        else if 0 < self.kSize.toNat - (self.filled front).length && !next.isEmpty then
          (lookup next id).bind fun behind =>
            some (self.filled front ++ behind.take (self.kSize.toNat - (self.filled front).length))
        else some (self.filled front)) = some nodes := by
    rw [lookup] at found
    simp only [guarded] at found
    split at found
    · rename_i asks
      rcases Option.bind_eq_some_iff.mp found with ⟨front, there, rest⟩
      exact ⟨front, (if_pos asks).trans there, rest⟩
    · rename_i asks
      exact ⟨[], if_neg asks, found⟩
  rcases first with ⟨front, asked, rest⟩
  have same : self.front next id = front := by
    rw [Bucket.front]
    split at asked
    · rename_i asks
      rw [if_pos asks, asked]
      rfl
    · rename_i asks
      rw [if_neg asks]
      exact Option.some.inj asked
  rw [asksAgain, same]
  rcases Option.ite_none_left_eq_some.mp rest with ⟨fits, rest⟩
  refine ⟨fun asks => ?_, Nat.le_of_not_lt fits, fun again => ?_, fun again => ?_⟩
  · rw [if_pos asks] at asked
    exact asked
  · rw [again, if_neg Bool.false_ne_true] at rest
    exact (Option.some.inj rest).symm
  · rw [again, if_pos rfl] at rest
    rcases Option.bind_eq_some_iff.mp rest with ⟨behind, there, equal⟩
    exact ⟨behind, there, (Option.some.inj equal).symm⟩

end Bucket

/-! ## A lookup without interference -/

namespace LookupCall

variable {call middle final : LookupCall} {table : Chain} {first second : Nat}

theorem alone_one (stepped : advance table (fun _ => false) call = some final) : call.alone table 1 = some final :=
  PartialRun.run_cons_eq_some.mpr ⟨final, stepped, rfl⟩

theorem alone_add (before : call.alone table first = some middle) (after : middle.alone table second = some final) :
    call.alone table (first + second) = some final := by
  rw [alone, List.replicate_add]
  exact PartialRun.run_append_eq_some.mpr ⟨middle, before, after⟩

variable {self : Bucket} {next front : Chain} {callers : List LookupFrame}

/-- The call with another stack. -/
def stacked (call : LookupCall) (frames : List LookupFrame) : LookupCall := { call with frames := frames }

/-- Each step is read off in the bucket that the topmost call is in. -/
theorem advance_stacked (call : LookupCall) {frame : LookupFrame} (callers : List LookupFrame)
    {replacement : List LookupFrame} {locked : Nat -> Bool}
    (moves : frame.advance table locked call.id = some replacement) :
    (call.stacked (frame :: callers)).advance table locked = some (call.stacked (replacement ++ callers)) := by
  change (match frame.stage with
    | .leave nodes => some ((call.stacked (frame :: callers)).give nodes callers)
    | _ => (frame.advance table locked call.id).map fun frames => call.stacked (frames ++ callers)) = _
  rcases frame with ⟨depth, stage⟩
  cases stage with
  | leave nodes =>
      unfold LookupFrame.advance at moves
      split at moves <;> cases moves
  | enter => simp only [moves, Option.map_some]
  | nearest => simp only [moves, Option.map_some]
  | fill kNearest => simp only [moves, Option.map_some]
  | recheck kNearest => simp only [moves, Option.map_some]
  | behind kNearest gap => simp only [moves, Option.map_some]

theorem bucket_at (front : Chain) (self : Bucket) (next : Chain) :
    (front ++ self :: next)[front.length]? = some self := by
  rw [List.getElem?_append_right (Nat.le_refl _), Nat.sub_self]
  rfl

theorem hasNext_at (front : Chain) (self : Bucket) (next : Chain) :
    decide (front.length + 1 < (front ++ self :: next).length) = !next.isEmpty := by
  rw [List.length_append, List.length_cons]
  cases next with
  | nil => simp
  | cons _ _ => simp

theorem enter_eq (front : Chain) (self : Bucket) (next : Chain) (id : U160) :
    LookupFrame.advance (front ++ self :: next) (fun _ => false) id ⟨front.length, .enter⟩ =
      if self.asksFirst next id then some [⟨front.length + 1, .enter⟩, ⟨front.length, .nearest⟩]
      else some [⟨front.length, .fill []⟩] := by
  rw [LookupFrame.advance, bucket_at]
  simp only [hasNext_at]
  rfl

theorem fill_eq (front : Chain) {self : Bucket} (next : Chain) (id : U160) {kNearest : List NodeInfo}
    (fits : kNearest.length ≤ self.kSize.toNat) :
    LookupFrame.advance (front ++ self :: next) (fun _ => false) id ⟨front.length, .fill kNearest⟩ =
      some [⟨front.length, .recheck (self.filled kNearest)⟩] := by
  rw [LookupFrame.advance, bucket_at]
  simp only [if_neg (Nat.not_lt.mpr fits), Bool.false_eq_true, if_false]
  split
  · rfl
  · rename_i full
    rw [Bucket.filled, Nat.eq_zero_of_not_pos full, List.take_zero, List.append_nil]

theorem recheck_eq (front : Chain) {self : Bucket} (next : Chain) (id : U160) {kNearest : List NodeInfo}
    (fits : kNearest.length ≤ self.kSize.toNat) :
    LookupFrame.advance (front ++ self :: next) (fun _ => false) id ⟨front.length, .recheck kNearest⟩ =
      if decide (0 < self.kSize.toNat - kNearest.length) && !next.isEmpty then
        some [⟨front.length + 1, .enter⟩, ⟨front.length, .behind kNearest (self.kSize.toNat - kNearest.length)⟩]
      else some [⟨front.length, .leave kNearest⟩] := by
  rw [LookupFrame.advance, bucket_at]
  simp only [if_neg (Nat.not_lt.mpr fits), hasNext_at]

/-- The stack of calls computes what the recursion does, from any bucket on. -/
theorem alone_lookup {chain : Chain} {nodes : List NodeInfo} (call : LookupCall) (front : Chain)
    (callers : List LookupFrame) (found : Bucket.lookup chain call.id = some nodes) :
    (call.stacked (⟨front.length, .enter⟩ :: callers)).alone (front ++ chain) (Bucket.lookupSteps chain call.id) =
      some (call.give nodes callers) := by
  induction chain generalizing front callers nodes with
  | nil => cases found
  | cons self next ih =>
      rcases Bucket.lookup_cons_eq_some found with ⟨first, fits, without, again⟩
      have behind : forall (caller : LookupFrame) (nodes : List NodeInfo), Bucket.lookup next call.id = some nodes ->
          (call.stacked (⟨front.length + 1, .enter⟩ :: caller :: callers)).alone (front ++ self :: next)
            (Bucket.lookupSteps next call.id) = some (call.stacked (caller.resume nodes :: callers)) := by
        intro caller nodes found
        have asked := ih (front ++ [self]) (caller :: callers) found
        rw [List.append_assoc, List.singleton_append, List.length_append, List.length_singleton] at asked
        exact asked
      have entered : (call.stacked (⟨front.length, .enter⟩ :: callers)).alone (front ++ self :: next)
          (1 + (if self.asksFirst next call.id then Bucket.lookupSteps next call.id else 0)) =
            some (call.stacked (⟨front.length, .fill (self.front next call.id)⟩ :: callers)) := by
        have moves := enter_eq front self next call.id
        cases asks : self.asksFirst next call.id with
        | true =>
            rw [asks, if_pos rfl] at moves
            rw [if_pos rfl]
            exact alone_add (alone_one (advance_stacked call callers moves))
              (behind ⟨front.length, .nearest⟩ _ (first asks))
        | false =>
            rw [asks, if_neg Bool.false_ne_true] at moves
            rw [if_neg Bool.false_ne_true, Bucket.front, asks, if_neg Bool.false_ne_true]
            exact alone_one (advance_stacked call callers moves)
      have filled := alone_one (advance_stacked call callers (fill_eq front next call.id fits))
      have left : (call.stacked (⟨front.length, .recheck (self.filled (self.front next call.id))⟩ :: callers)).alone
          (front ++ self :: next) (1 + (if self.asksAgain next call.id then Bucket.lookupSteps next call.id else 0)) =
            some (call.stacked (⟨front.length, .leave nodes⟩ :: callers)) := by
        have moves := recheck_eq front next call.id (Bucket.length_filled_le fits)
        rw [<- Bucket.asksAgain] at moves
        cases asks : self.asksAgain next call.id with
        | true =>
            rcases again asks with ⟨later, there, rfl⟩
            rw [asks, if_pos rfl] at moves
            rw [if_pos rfl]
            exact alone_add (alone_one (advance_stacked call callers moves)) (behind _ _ there)
        | false =>
            rw [asks, if_neg Bool.false_ne_true] at moves
            rw [if_neg Bool.false_ne_true, without asks]
            exact alone_one (advance_stacked call callers moves)
      have given : (call.stacked (⟨front.length, .leave nodes⟩ :: callers)).alone (front ++ self :: next) 1 =
          some (call.give nodes callers) := by
        apply alone_one
        cases callers <;> rfl
      have all := alone_add (alone_add (alone_add entered filled) left) given
      have count : Bucket.lookupSteps (self :: next) call.id =
          1 + (if self.asksFirst next call.id then Bucket.lookupSteps next call.id else 0) + 1 +
            (1 + (if self.asksAgain next call.id then Bucket.lookupSteps next call.id else 0)) + 1 := by
        rw [Bucket.lookupSteps]
        omega
      rw [count]
      exact all

end LookupCall

end DhtExplorer
