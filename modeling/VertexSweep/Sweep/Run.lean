import VertexSweep.Sweep.Program

/-! Running a vertex program. Iteration 0 makes every vertex due. Each iteration sweeps over the
windows of the graph in ascending order and updates the vertices of each window in ascending
order: all of them in a dense run, those that are due when their turn comes in a selective one.
The run ends after an iteration that changed nothing, after one that a hook named as the last,
when a selective run has no task left, or at the iteration ceiling. An update that fails ends it
at once. -/

namespace VertexSweep

/-- The state of a run between two updates. -/
structure Stage (σ V E : Type) where
  state : σ
  values : Array V
  slots : Array E
  tasks : Tasks
  control : Control := {}
  /-- How many vertices were updated in this iteration. -/
  visited : Nat := 0
  /-- How many of these updates reported a change. -/
  changed : Nat := 0

/-- A run that came to its end. -/
structure Finished (σ V E : Type) where
  report : Report
  state : σ
  graph : DataGraph V E

/-- A run that an update ended, with the state and the graph as that update left them. -/
structure Aborted (σ V E : Type) where
  fault : Fault
  state : σ
  graph : DataGraph V E

namespace Stage

variable {σ V E : Type} [Inhabited V]

def run (s : Stage σ V E) (hook : Hook σ) : Stage σ V E :=
  match s with
  | ⟨state, values, slots, tasks, control, visited, changed⟩ =>
    let (state, wish) := hook control state
    ⟨state, values, slots, tasks, control.heed wish, visited, changed⟩

/-- Gives `v` its turn: takes its task and, unless the run is selective and there was none,
updates it and grants what it requests. Dense runs ignore requests. -/
def visit (program : VertexProgram σ V E) (settings : Settings) (g : Adjacency)
    (s : Stage σ V E) (v : VertexId) : Except (Aborted σ V E) (Stage σ V E) :=
  match s with
  | ⟨state, values, slots, tasks, control, visited, changed⟩ =>
    let (due, tasks) := tasks.take v
    if settings.selective && !due then
      .ok ⟨state, values, slots, tasks, control, visited, changed⟩
    else
      let value := values.getD v.toNat default
      match program.update ⟨control.iteration, settings⟩ state ⟨v, value, g, slots⟩ with
      | ⟨state, ⟨_, value, _, slots⟩, requests, verdict⟩ =>
        let values := values.setIfInBounds v.toNat value
        match verdict with
        | .error fault => .error ⟨fault, state, ⟨g, values, slots⟩⟩
        | .ok activity =>
          let tasks := if settings.selective then requests.foldl Tasks.grant tasks else tasks
          .ok ⟨state, values, slots, tasks, control, visited + 1,
            if activity.isChanged then changed + 1 else changed⟩

/-- Sweeps over one window, between its hooks. -/
def sweep (program : VertexProgram σ V E) (settings : Settings) (g : Adjacency)
    (s : Stage σ V E) (w : Window) : Except (Aborted σ V E) (Stage σ V E) := do
  let s ← w.vertices.foldlM (visit program settings g) (s.run (program.beforeWindow w))
  return s.run (program.afterWindow w)

/-- Enters an iteration: nothing is visited yet. -/
def enter (s : Stage σ V E) (iteration : UInt32) : Stage σ V E :=
  { s with control := { s.control with iteration }, visited := 0, changed := 0 }

/-- The summary of the iteration, as it stands. -/
def summary (s : Stage σ V E) : RoundSummary :=
  .ofCounts s.control.iteration s.visited s.changed s.tasks.pending

/-- Carries out one iteration, up to the point where the next sweep's tasks become due. -/
def iterate (program : VertexProgram σ V E) (settings : Settings) (g : Adjacency)
    (ws : List Window) (s : Stage σ V E) (iteration : UInt32) :
    Except (Aborted σ V E) (RoundSummary × Stage σ V E) := do
  let s ← ws.foldlM (sweep program settings g) ((s.enter iteration).run program.beforeIteration)
  let round := s.summary
  let s := s.run (program.afterIteration round)
  return (round, { s with tasks := s.tasks.advance })

/-- How the run ends after an iteration with the given summary, if it does. -/
def outcome? (settings : Settings) (round : RoundSummary) (s : Stage σ V E) : Option Outcome :=
  if round.converged then some .converged
  else if s.control.endsAfter round.iteration then some .halted
  else if settings.selective && !s.tasks.isActive then some .converged
  else none

/-- The end of a run with the given outcome and rounds. -/
def finish (g : Adjacency) (s : Stage σ V E) (outcome : Outcome) (rounds : Array RoundSummary) :
    Finished σ V E :=
  ⟨⟨outcome, UInt32.ofNat rounds.size, rounds⟩, s.state, ⟨g, s.values, s.slots⟩⟩

/-- Carries out at most `left` iterations, the next of which has the given number. -/
def runFrom (program : VertexProgram σ V E) (settings : Settings) (g : Adjacency)
    (ws : List Window) (s : Stage σ V E) (rounds : Array RoundSummary) (iteration : UInt32) :
    (left : Nat) → Except (Aborted σ V E) (Finished σ V E)
  | 0 => .ok (s.finish g .iterationLimit rounds)
  | left + 1 =>
    match s.iterate program settings g ws iteration with
    | .error aborted => .error aborted
    | .ok (round, s) =>
      match s.outcome? settings round with
      | some outcome => .ok (s.finish g outcome (rounds.push round))
      | none => runFrom program settings g ws s (rounds.push round) (iteration + 1) left

end Stage

/-- Runs a program on a graph, starting from the given program state and the values that the graph
has. -/
def VertexProgram.run {σ V E : Type} [Inhabited V] (program : VertexProgram σ V E)
    (settings : Settings) (state : σ) (graph : DataGraph V E) :
    Except (Aborted σ V E) (Finished σ V E) :=
  match graph with
  | ⟨g, values, slots⟩ =>
    let n := g.vertexCount
    Stage.runFrom program settings g (windows n settings.intervalSize)
      { state, values, slots, tasks := (Tasks.ofVertexCount n).addAll } #[] 0
      settings.maxIterations.toNat

/-- Runs a program on a graph, and forgets what an update that failed has left behind. -/
def VertexProgram.runToEnd {σ V E : Type} [Inhabited V] (program : VertexProgram σ V E)
    (settings : Settings) (state : σ) (graph : DataGraph V E) : Except Fault (Finished σ V E) :=
  (program.run settings state graph).mapError (·.fault)

/-- Runs a program on the graph of an edge list, in which every value is the default. -/
def VertexProgram.runOn {σ V E : Type} [Inhabited V] [Inhabited E] (program : VertexProgram σ V E)
    (settings : Settings) (state : σ) (l : EdgeList) : Except Fault (Finished σ V E) := do
  program.runToEnd settings state (← DataGraph.ofEdgeList l)

end VertexSweep
