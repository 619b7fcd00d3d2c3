import Mathlib.Data.List.Lex
import DhtExplorer.Search

namespace DhtExplorer

/-!
# The keyspace sweep

The sweep asks every node it knows for samples, in the order of the ids, and
queues the nodes it is told of.  Each finished query lets the loop start at most
one other.  Where an answer has no nodes and the next queued node is far away, a
backfill task searches the network from the head of the queue and adds what it
finds, on its own schedule.

The loop, the query tasks and the backfill task share the queue and the set of
ids that were ever queued.  The loop and the backfill are split into stages at the
points where they take or release a lock, so a list of actions is an interleaving.
-/

/-! ## The queue -/

/-- IPv4 addresses come first; then the fields are compared in their order. -/
def SocketAddr.sortKey : SocketAddr -> List Nat
  | v4 ip port => [4, ip.toNat, port.toNat]
  | v6 ip port flowinfo scopeId => [6, ip.toNat, port.toNat, flowinfo.toNat, scopeId.toNat]

/-- Contacts are compared by their ids and then by their addresses. -/
def NodeInfo.sortKey (self : NodeInfo) : List Nat := self.id.toNat :: self.addr.sortKey

abbrev SendQueue := OrderedSet NodeInfo NodeInfo.sortKey

/-- Further away than this, the next queued node leaves a gap. -/
def LARGE_GAP : U160 := .new 0x00003fffffffffffffffffffffffffff 0xffffffff

def SendQueue.largeGap (self : SendQueue) (target : U160) : Bool :=
  match self.items.head? with
  | none => false
  | some q => decide (LARGE_GAP < q.id.distance target)

/-! ## The state -/

/-- Where the loop stands.  Waiting with no task left, it returns. -/
inductive LoopStage where
  | waiting
  | received (target : U160) (nodes : List NodeInfo)
  | looked (target : U160) (largeGap : Bool)
  | popping
deriving DecidableEq, Repr

inductive BackfillStage where
  | spawned (target : U160)
  | searching (target : U160) (nodes : List NodeInfo)
  | adding (target : U160) (nodes : List NodeInfo)
  | leaving
  | finished
deriving DecidableEq, Repr

/-- The tasks are the nodes that are being asked.  The last two fields are not
read: they record which nodes were queued, and which were asked to the end. -/
structure Sweep where
  queried : Finset U160
  toSend : SendQueue
  tasks : List NodeInfo
  loop : LoopStage
  backfillHandle : Option BackfillStage
  tx : List U160
  queued : List NodeInfo
  asked : List NodeInfo

/-- A query task finishes with the outcomes of its two queries, the loop moves on,
or the backfill task does; its search takes place in some network. -/
inductive SweepAction where
  | finish (task : Nat) (sampling finding : Option Response)
  | loop
  | backfill (network : List Completion)

/-- The second query is made only if the first is not answered with samples. -/
def queryOne (n : NodeInfo) (sampling finding : Option Response) : U160 × List NodeInfo × Option (List U160) :=
  match sampling.map Response.kind with
  | some (.samples nodes samples _ _) => (n.id, nodes, some samples)
  | _ =>
      match finding.map Response.kind with
      | some (.kNearest nodes _) => (n.id, nodes, none)
      | _ => (n.id, [], none)

namespace Sweep

/-- The body of the loop of `add_to_send_queue`. -/
def offer (self : Sweep) (n : NodeInfo) : Sweep :=
  if n.id ∈ self.queried then self
  else
    let (toSend, taken) := self.toSend.insert n
    { self with
      queried := insert n.id self.queried
      toSend := toSend
      queued := if taken then self.queued ++ [n] else self.queued }

def addToSendQueue (self : Sweep) (target : U160) (nodes : List NodeInfo) : Sweep :=
  (nodes.filter fun n => target < n.id).foldl offer self

def queryNext (self : Sweep) : Sweep :=
  match self.toSend.popFirst with
  | none => self
  | some (n, toSend) => { self with toSend := toSend, tasks := self.tasks ++ [n] }

/-- The nodes of the two searches are queued. -/
def initial (lowest highest : List NodeInfo) : Sweep where
  queried := ((lowest ++ highest).map NodeInfo.id).toFinset
  toSend := (lowest ++ highest).foldl (fun toSend n => (toSend.insert n).1) .empty
  tasks := []
  loop := .waiting
  backfillHandle := none
  tx := []
  queued := lowest ++ highest
  asked := []

def start (lowest highest : List NodeInfo) : Sweep := Nat.iterate queryNext 200 (initial lowest highest)

def isFinished (self : Sweep) : Bool :=
  match self.backfillHandle with
  | none => true
  | some stage => decide (stage = .finished)

/-- The loop up to the next lock. -/
def loopStep (self : Sweep) : Option Sweep :=
  match self.loop with
  | .waiting => none
  | .received target nodes =>
      if nodes.isEmpty then some { self with loop := .looked target (self.toSend.largeGap target) }
      else some { self.addToSendQueue target nodes with loop := .popping }
  | .looked target largeGap =>
      if largeGap && self.isFinished then
        some { self with backfillHandle := some (.spawned target), loop := .popping }
      else some { self with loop := .popping }
  | .popping => some { self.queryNext with loop := .waiting }

/-- The task has finished some time after it has added its nodes. -/
def backfillStep (crypto : Crypto) (chance : Chance) (self : Sweep) (network : List Completion) : Option Sweep :=
  match self.backfillHandle with
  | none => none
  | some (.spawned target) =>
      some { self with backfillHandle := some (.searching target (self.toSend.items.take 8)) }
  | some (.searching target nodes) =>
      (findNNodesStartingAt crypto chance target 255 nodes network).map fun nodes =>
        { self with backfillHandle := some (.adding target nodes) }
  | some (.adding target nodes) => some { self.addToSendQueue target nodes with backfillHandle := some .leaving }
  | some .leaving => some { self with backfillHandle := some .finished }
  | some .finished => none

def finishStep (self : Sweep) (task : Nat) (sampling finding : Option Response) : Option Sweep :=
  match self.loop with
  | .waiting =>
      self.tasks[task]?.map fun n =>
        let (target, nodes, samples) := queryOne n sampling finding
        { self with
          tasks := self.tasks.eraseIdx task
          asked := self.asked ++ [n]
          tx := self.tx ++ samples.getD []
          loop := .received target nodes }
  | _ => none

def step (crypto : Crypto) (chance : Chance) (self : Sweep) : SweepAction -> Option Sweep
  | .finish task sampling finding => self.finishStep task sampling finding
  | .loop => self.loopStep
  | .backfill network => self.backfillStep crypto chance network

def run (crypto : Crypto) (chance : Chance) (lowest highest : List NodeInfo) (actions : List SweepAction) :
    Option Sweep :=
  PartialRun.run (step crypto chance) (start lowest highest) actions

end Sweep
end DhtExplorer
