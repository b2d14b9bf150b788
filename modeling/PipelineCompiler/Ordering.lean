import PipelineCompiler.Model.Graph
import PipelineCompiler.Report

set_option autoImplicit false

namespace PipelineCompiler

/-- A node with the distinct nodes that feed it and that it feeds, in order of first occurrence. -/
structure Adjacency where
  id : Int
  incoming : List Int
  outgoing : List Int
  deriving Repr, DecidableEq

namespace Adjacency

def last? (id : Int) : List Adjacency → Option Adjacency
  | [] => none
  | r :: rest =>
    match last? id rest with
    | some s => some s
    | none => if r.id = id then some r else none

def updateLast (id : Int) (change : Adjacency → Adjacency) : List Adjacency → List Adjacency
  | [] => []
  | r :: rest =>
    if r.id = id && (last? id rest).isNone then change r :: rest
    else r :: updateLast id change rest

/-- A link adds each end to the other's list, unless it is dangling or known already. -/
def addLink (records : List Adjacency) (link : Link) : List Adjacency :=
  match last? link.source records, last? link.target records with
  | some source, some _ =>
    if link.target ∈ source.outgoing then records
    else
      let left := updateLast link.source
        (fun r => { r with outgoing := r.outgoing ++ [link.target] }) records
      updateLast link.target (fun r => { r with incoming := r.incoming ++ [link.source] }) left
  | _, _ => records

end Adjacency

def adjacency (nodes : List Node) (links : List Link) : List Adjacency :=
  links.foldl Adjacency.addLink (nodes.map fun n => ⟨n.id, [], []⟩)

inductive OrderError where
  | noEntryPoint
  /-- Repeated ids keep the queue filled for ever. -/
  | endless
  /-- A note or a warning on the order would hold a number that has no numeral. -/
  | noNumeral
  deriving Repr, DecidableEq

namespace Sequence

/-- The queue and the ids that have run, in order. -/
structure State where
  queue : List Adjacency
  done : List Int
  deriving Repr, DecidableEq

def isReady (done : List Int) (r : Adjacency) : Bool := r.incoming.all fun id => done.contains id

/-- What becomes ready when a record runs, in the order of its outgoing list. -/
def released (records : List Adjacency) (done : List Int) (r : Adjacency) : List Adjacency :=
  (r.outgoing.filterMap fun id => Adjacency.last? id records).filter (isReady done)

def step (records : List Adjacency) (s : State) : State :=
  match s.queue with
  | [] => s
  | r :: rest =>
    let done := s.done ++ [r.id]
    ⟨rest ++ released records done r, done⟩

/-- The ids in the order in which they ran, if the queue empties within the given number of
steps. -/
def run (records : List Adjacency) : Nat → State → Option (List Int)
  | 0, s => if s.queue.isEmpty then some s.done else none
  | fuel + 1, s => if s.queue.isEmpty then some s.done else run records fuel (step records s)

def start (records : List Adjacency) : State :=
  ⟨records.filter fun r => r.incoming.isEmpty, []⟩

/-- A queue that empties at all does so within this number of steps: no record can release, over
any number of steps, itself, since it would do so for ever; hence releases form trees whose depth
is at most the number of records and whose width at each node the length of an outgoing list. -/
def stepBound (records : List Adjacency) : Nat :=
  let width := (records.map fun r => r.outgoing.length).foldl max 0
  records.length * Nat.pow (width + 1) records.length

end Sequence

def sequence (records : List Adjacency) : Except OrderError (List Int) :=
  let start := Sequence.start records
  if start.queue.isEmpty then .error .noEntryPoint
  else
    match Sequence.run records (Sequence.stepBound records) start with
    | some order => .ok order
    | none => .error .endless

def unsequenced (ids : List Int) (order : List Int) : List Int :=
  ids.filter fun id => !order.contains id

def isIncomplete (records : List Adjacency) (order : List Int) : Bool :=
  order.length < records.length

def missing (records : List Adjacency) (order : List Int) : List Int :=
  unsequenced (records.map Adjacency.id) order

def leftOutText (ids : String) : String :=
  "Nodes left out of the execution sequence (cycle or unreachable): " ++ ids

def Link.hasNumerals (link : Link) : Bool := hasNumeral link.source && hasNumeral link.target

/-- A dangling link is passed over with a note of its ends. -/
def Adjacency.takeLink (records : List Adjacency) (link : Link) :
    Except OrderError (List Adjacency) :=
  match last? link.source records, last? link.target records with
  | some _, some _ => .ok (addLink records link)
  | _, _ => if link.hasNumerals then .ok records else .error .noNumeral

/-- The adjacency of a graph, if the notes on its dangling links can be written. -/
def reportedAdjacency (nodes : List Node) (links : List Link) :
    Except OrderError (List Adjacency) :=
  links.foldlM Adjacency.takeLink (nodes.map fun n => ⟨n.id, [], []⟩)

/-- The order, if the warning on what it leaves out can be written. -/
def reportedSequence (records : List Adjacency) : Except OrderError (List Int) := do
  let order ← sequence records
  if isIncomplete records order && !(missing records order).all hasNumeral then .error .noNumeral
  else .ok order

/-- The records and the order of a graph. The order is noted as a whole. -/
def executionOrder (g : Graph) : Except OrderError (List Adjacency × List Int) := do
  let records ← reportedAdjacency g.nodes g.links
  let order ← reportedSequence records
  if order.all hasNumeral then .ok (records, order) else .error .noNumeral

def sequenceLog (records : List Adjacency) : List LogLine :=
  match reportedSequence records with
  | .ok order =>
    if isIncomplete records order then
      [⟨.warning, leftOutText (Value.list ((missing records order).map .int)).quoted⟩]
    else []
  | .error _ => []

end PipelineCompiler
