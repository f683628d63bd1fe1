import VertexSweep.Match.Candidates
import VertexSweep.Match.Pattern
import VertexSweep.Sweep.Run

/-! Graph simulation as a vertex program. Iteration 0 labels the vertices, each of which writes
its label onto its in-edges, so that an edge carries the label of its target. While the candidate
table is open, a vertex without candidates takes every pattern vertex of its own label. Once the
table is sealed, which happens before iteration 2 at the latest, a vertex drops each candidate `p`
that it cannot cover: for every pattern edge `p → q` some out-edge must carry the label of `q` and
lead to a vertex that still has `q`. -/

namespace VertexSweep

/-- What a simulation remembers. -/
structure Matching where
  table : Candidates
  /-- How many candidates were added. -/
  seeded : Nat := 0
  /-- How many candidates were dropped. -/
  pruned : Nat := 0
  /-- How many candidates were left after each iteration. -/
  history : Array Nat := #[]
deriving DecidableEq, Repr, Inhabited

namespace Simulation

/-- The first iteration that refines whatever the table was before. -/
def refineFrom : UInt32 := 2

/-- Whether a vertex can cover its candidate `p`. -/
def covers (pattern : Pattern) (table : Candidates) (view : View Label Label) (p : PatternId) :
    Bool :=
  (pattern.neighborsOf p).all fun q =>
    match pattern.labelOf? q with
    | none => false
    | some wanted => view.outEdges.any fun e => e.value == wanted && table.contains e.far q

/-- Adds each of the given candidates to `u`, up to the first failure. -/
def seedEach (u : VertexId) : List PatternId → Activity → Matching →
    Except Fault Activity × Matching
  | [], activity, m => (.ok activity, m)
  | p :: ps, activity, ⟨table, seeded, pruned, history⟩ =>
    match table.add u p with
    | (.error fault, table) => (.error fault, ⟨table, seeded, pruned, history⟩)
    | (.ok true, table) => seedEach u ps .changed ⟨table, seeded + 1, pruned, history⟩
    | (.ok false, table) => seedEach u ps activity ⟨table, seeded, pruned, history⟩

/-- Drops those of the given candidates that are not covered, up to the first failure. -/
def refineEach (pattern : Pattern) (view : View Label Label) :
    List PatternId → Activity → Matching → Except Fault Activity × Matching
  | [], activity, m => (.ok activity, m)
  | p :: ps, activity, ⟨table, seeded, pruned, history⟩ =>
    if covers pattern table view p then
      refineEach pattern view ps activity ⟨table, seeded, pruned, history⟩
    else
      match table.prune view.id p with
      | (.error fault, table) => (.error fault, ⟨table, seeded, pruned, history⟩)
      | (.ok _, table) => refineEach pattern view ps .changed ⟨table, seeded, pruned + 1, history⟩

def assign (label : Label) (m : Matching) (view : View Label Label) : Update Matching Label Label :=
  { state := m
    view := (view.setValue label).writeAll view.inLinks label
    requests := #[.add view.id false]
    verdict := .ok .changed }

/-- Gives a vertex without candidates all that have its label. -/
def seed (pattern : Pattern) (m : Matching) (view : View Label Label) :
    Update Matching Label Label :=
  let requests := #[.add view.id false]
  if m.table.isLive view.id then
    { state := m, view, requests, verdict := .ok .quiet }
  else
    let ps := pattern.vertices.filter (pattern.labelOf? · == some view.value)
    let (verdict, m) := seedEach view.id ps .quiet m
    { state := m, view, requests, verdict }

/-- Drops the candidates of a vertex that are not covered; if there are any, all neighbors are
wanted again. -/
def refine (pattern : Pattern) (m : Matching) (view : View Label Label) :
    Update Matching Label Label :=
  if m.table.isLive view.id then
    let (verdict, m) := refineEach pattern view (m.table.candidatesOf view.id) .quiet m
    let requests := match verdict with
      | .ok .changed => view.links.map (.add ·.far true)
      | _ => #[]
    { state := m, view, requests, verdict }
  else
    { state := m, view, verdict := .ok .quiet }

/-- The program that matches a pattern in a graph labelled by a fixed function. -/
def program (pattern : Pattern) (labels : VertexId → Label) :
    VertexProgram Matching Label Label where
  update ctx m view :=
    if ctx.iteration = 0 then assign (labels view.id) m view
    else if m.table.isSealed then refine pattern m view
    else seed pattern m view
  beforeIteration control m :=
    (if refineFrom ≤ control.iteration then { m with table := m.table.sealed } else m, none)
  afterIteration _ _ m := ({ m with history := m.history.push m.table.total }, none)

/-- What a simulation found. -/
structure Found where
  report : Report
  table : Candidates
  labels : Array Label
  /-- How many candidates were left after each iteration. -/
  history : Array Nat
  /-- How many candidates were dropped. -/
  pruned : Nat
deriving DecidableEq, Repr, Inhabited

def Found.ofRun (run : Finished Matching Label Label) : Found where
  report := run.report
  table := run.state.table
  labels := run.graph.values
  history := run.state.history
  pruned := run.state.pruned

/-- Matches a pattern in the labelled graph of an edge list, from an empty table. -/
def solve (l : EdgeList) (pattern : Pattern) (labels : VertexId → Label) (settings : Settings) :
    Except Fault Found := do
  let graph ← DataGraph.ofEdgeList l
  let table := Candidates.ofCapacity graph.adjacency.vertexCount pattern.vertexCount
  return .ofRun (← (program pattern labels).runToEnd settings { table } graph)

/-- Refines the candidates of an existing table, which is sealed first. -/
def refineAgain (l : EdgeList) (pattern : Pattern) (table : Candidates)
    (labels : VertexId → Label) (settings : Settings) : Except Fault Found := do
  return .ofRun (← (program pattern labels).runOn settings { table := table.sealed } l)

end Simulation

end VertexSweep
