import VertexSweep.Fault
import VertexSweep.Graph.View
import VertexSweep.Sweep.Round
import VertexSweep.Sweep.Settings
import VertexSweep.Sweep.Tasks
import VertexSweep.Sweep.Window

/-! Vertex programs: an update that is carried out at one vertex at a time, and hooks that run
around iterations and windows. A program has a state of its own, of type `σ`, which it passes on
from callback to callback. An update reads and writes the graph only through its view, and the
schedule only through requests; a hook can only ask for the run to end. -/

namespace VertexSweep

/-- What an update may know about the run. -/
structure Context where
  /-- The number of the iteration, from zero. -/
  iteration : UInt32
  settings : Settings
deriving DecidableEq, Repr, Inhabited

/-- What an update leaves behind, whether it succeeds or fails. -/
structure Update (σ V E : Type) where
  state : σ
  /-- The vertex and its edges; of the view only the value and the slots matter. -/
  view : View V E
  /-- The requests in the order in which they were made. -/
  requests : Array Request := #[]
  /-- What was done, or why the run must end. -/
  verdict : Except Fault Activity

/-- What hooks may know about the run. -/
structure Control where
  /-- The iteration in which the hook runs. -/
  iteration : UInt32 := 0
  /-- The earliest iteration after which some hook has asked the run to end. -/
  last : Option UInt32 := none
deriving DecidableEq, Repr, Inhabited

namespace Control

/-- Takes note of the wish that `iteration` be the last one; the earliest such wish counts. -/
def endAfter (c : Control) (iteration : UInt32) : Control :=
  { c with last := some (match c.last with
      | none => iteration
      | some last => min last iteration) }

/-- Takes note of what a hook asked for, if anything. -/
def heed (c : Control) : Option UInt32 → Control
  | none => c
  | some iteration => c.endAfter iteration

/-- Whether the run has been asked to end after `iteration`, or before. -/
def endsAfter (c : Control) (iteration : UInt32) : Bool :=
  match c.last with
  | none => false
  | some last => last ≤ iteration

end Control

/-- A hook passes the state on, and may name an iteration after which the run must end. -/
abbrev Hook (σ : Type) := Control → σ → σ × Option UInt32

def Hook.idle {σ : Type} : Hook σ := fun _ state => (state, none)

/-- A vertex program with state `σ` on graphs with vertex values `V` and edge values `E`. -/
structure VertexProgram (σ V E : Type) where
  update : Context → σ → View V E → Update σ V E
  beforeIteration : Hook σ := Hook.idle
  /-- Runs after an iteration, with its summary. -/
  afterIteration : RoundSummary → Hook σ := fun _ => Hook.idle
  /-- Runs before the vertices of a window. -/
  beforeWindow : Window → Hook σ := fun _ => Hook.idle
  /-- Runs after the vertices of a window. -/
  afterWindow : Window → Hook σ := fun _ => Hook.idle

end VertexSweep
