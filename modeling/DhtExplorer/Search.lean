import Mathlib.Data.Finset.Insert
import DhtExplorer.AddressBinding
import DhtExplorer.Library.OrderedSet
import DhtExplorer.Library.PartialRun
import DhtExplorer.Message
import DhtExplorer.RouterConcurrency

namespace DhtExplorer

/-!
# The iterative search

A search keeps a set of tasks.  Each of them asks one node for nodes closer to the
target, and the loop takes their results in the order in which they finish.  A
reported node is seen unless it is too far away, its id is seen already, or too
many closer ones are; a node that is seen and valid gets a task of its own.

The network decides which task finishes next and what it was answered.  A run of
the loop is therefore a list of completions.  Three fields of the state are not
read by the loop: they record which nodes were reported, queried and answered.
-/

/-- What a search is started for.  The random bits of the id check are masked out
by it, so one draw stands for all. -/
structure SearchConfig where
  crypto : Crypto
  chance : Chance
  target : U160
  findPeers : Bool

inductive OneResult where
  | foundSome (nodes : List NodeInfo)
  | removeOne (node : NodeInfo)
  | peers (peers : List SocketAddr) (nodes : Option (List NodeInfo))
deriving DecidableEq, Repr

inductive Found where
  | kClosest (nodes : List NodeInfo)
  | peers (peers : Finset SocketAddr)
deriving DecidableEq

/-- The task that starts the search, and the tasks of `send_find`. -/
inductive SearchTask where
  | start (nodes : List NodeInfo)
  | sendFind (node : NodeInfo)
deriving DecidableEq, Repr

/-- A task finishes.  Its query was answered or failed in some way. -/
structure Completion where
  task : Nat
  outcome : Option Response

namespace SearchConfig

variable (config : SearchConfig)

def valid (node : NodeInfo) : Bool := node.validate config.crypto config.chance

/-- The method of the queries that `send_find` makes. -/
def method : QueryMethod := if config.findPeers then .getPeers config.target else .findNode config.target

/-- What `send_find` makes of the outcome of its query: the result for the loop,
and the call on the routing table, which the loop does not wait for. -/
def sendFind (node : NodeInfo) : Option Response -> OneResult × RouterCall
  | some r =>
      let result :=
        match r.kind with
        | .kNearest nodes _ => OneResult.foundSome nodes
        | .peers peers _ nodes => if config.findPeers then .peers peers nodes else .removeOne node
        | _ => .removeOne node
      (result, .add r.base.origin.toNodeInfo)
  | none => (.removeOne node, .banId node.id)

def result (outcome : Option Response) : SearchTask -> OneResult
  | .start nodes => .foundSome nodes
  | .sendFind node => (config.sendFind node outcome).1

end SearchConfig

/-- Nodes in the order of their distance, one for each distance. -/
abbrev SeenSet (target : U160) := OrderedSet NodeInfo fun node : NodeInfo => target.distance node.id

structure Search (target : U160) where
  tasks : List SearchTask
  ignore : Finset NodeInfo
  seen : SeenSet target
  peers : Finset SocketAddr
  reported : List NodeInfo
  queried : List NodeInfo
  answered : List NodeInfo

namespace Search

def start (target : U160) (nodes : List NodeInfo) : Search target where
  tasks := [.start nodes]
  ignore := ∅
  seen := .empty
  peers := ∅
  reported := []
  queried := []
  answered := []

variable (config : SearchConfig)

/-- Closer to the target than the node at the limit position, if there is one. -/
def closeEnough (seen : SeenSet config.target) (found : NodeInfo) : Bool :=
  match seen.items[(K_SIZE * 2).toNat]? with
  | none => true
  | some close => decide (config.target.distance found.id < config.target.distance close.id)

/-- The body of the loop over the reported nodes. -/
def consider (self : Search config.target) (found : NodeInfo) : Search config.target :=
  let self := { self with reported := self.reported ++ [found] }
  if closeEnough config self.seen found then
    let (seen, taken) := self.seen.insert found
    if taken && config.valid found then
      { self with seen := seen, tasks := self.tasks ++ [.sendFind found], queried := self.queried ++ [found] }
    else { self with seen := seen }
  else self

def handle (self : Search config.target) : OneResult -> Search config.target
  | .foundSome nodes => nodes.foldl (consider config) self
  | .removeOne node => { self with ignore := insert node self.ignore }
  | .peers found nodes => (nodes.getD []).foldl (consider config) { self with peers := self.peers ∪ found.toFinset }

/-- The node whose answer could be used. -/
def answering (task : SearchTask) : OneResult -> List NodeInfo
  | .removeOne _ => []
  | _ =>
      match task with
      | .start _ => []
      | .sendFind node => [node]

/-- The loop takes the result of a finished task. -/
def step (self : Search config.target) (completion : Completion) : Option (Search config.target) :=
  self.tasks[completion.task]?.map fun task =>
    let result := config.result completion.outcome task
    handle config
      { self with
        tasks := self.tasks.eraseIdx completion.task
        answered := self.answered ++ answering task result }
      result

/-- What the search returns when no task is left. -/
def found {target : U160} (self : Search target) (k : UInt8) : Found :=
  if self.peers.Nonempty then .peers self.peers
  else .kClosest ((self.seen.items.filter fun node => node ∉ self.ignore).take k.toNat)

def run (nodes : List NodeInfo) (completions : List Completion) : Option (Search config.target) :=
  PartialRun.run (step config) (start config.target nodes) completions

end Search

/-- The search without `find_peers`, where the network lets the tasks finish in
this way.  There is no result while tasks are left. -/
def findNNodesStartingAt (crypto : Crypto) (chance : Chance) (target : U160) (n : UInt8) (nodes : List NodeInfo)
    (network : List Completion) : Option (List NodeInfo) :=
  (Search.run ⟨crypto, chance, target, false⟩ nodes network).bind fun final =>
    if final.tasks.isEmpty then
      match final.found n with
      | .kClosest nodes => some nodes
      | .peers _ => none
    else none

end DhtExplorer
