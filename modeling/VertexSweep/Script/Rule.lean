import VertexSweep.Sweep.Program

/-! Scripts: vertex programs written as data. A script is a list of rules, each with a condition
on the iteration, the vertex and the state, and a list of actions, together with hooks that ask
for the end of a run. -/

namespace VertexSweep.Script

/-- Which numbers a rule applies to. -/
inductive Range where
  | any
  | only (n : Nat)
  | between (lo hi : Nat)
deriving DecidableEq, Repr

def Range.admits : Range → Nat → Bool
  | any, _ => true
  | only n, k => n == k
  | between lo hi, k => lo ≤ k && k ≤ hi

/-- Which part of the incident edges an index counts through. -/
inductive Side where
  | inward
  | outward
  | both
deriving DecidableEq, Repr

/-- Expressions; their values are words. -/
inductive Expr where
  | literal (n : UInt32)
  | id
  | value
  | iteration
  /-- The number of edges on one side. -/
  | degree (side : Side)
  /-- The least in-edge value, or the largest word if there is none. -/
  | leastIn
  /-- The greatest value of an incident edge, or zero if there is none. -/
  | greatest
  /-- The iteration ceiling. -/
  | ceiling
  /-- The value of an edge. -/
  | edge (side : Side) (i : Nat)
  /-- The far endpoint of an edge. -/
  | far (side : Side) (i : Nat)
  /-- The sum, which wraps around. -/
  | plus (a b : Expr)
  /-- The difference, which stops at zero. -/
  | minus (a b : Expr)
  | least (a b : Expr)
deriving DecidableEq, Repr

/-- Conditions. -/
inductive Condition where
  | always
  /-- Whether the run is selective. -/
  | selective
  | less (a b : Expr)
  | equal (a b : Expr)
  | differ (a b : Expr)
deriving DecidableEq, Repr

/-- Actions. -/
inductive Action where
  /-- The update counts as a change. -/
  | changed
  | set (e : Expr)
  | setEdge (side : Side) (i : Nat) (e : Expr)
  | broadcast (e : Expr)
  | task (e : Expr) (urgent : Bool)
  /-- Requests a visit of every neighbor. -/
  | tasks (urgent : Bool)
  /-- Drops tasks of the current sweep. -/
  | untask (first last : Expr)
  | fail
  /-- Logs everything that can be read. -/
  | probe
deriving DecidableEq, Repr

/-- A rule: where it applies, and what it does there. -/
structure Rule where
  iteration : Range := .any
  vertex : Range := .any
  condition : Condition := .always
  actions : List Action
deriving DecidableEq, Repr

/-- The points at which a hook can run. -/
inductive HookPoint where
  | beforeIteration
  | afterIteration
  | beforeWindow
  | afterWindow
deriving DecidableEq, Repr

/-- A hook that asks for the run to end after the iteration `last`. -/
structure HookRule where
  point : HookPoint
  iteration : Range := .any
  /-- The first vertices of the windows around which the hook runs. -/
  start : Range := .any
  last : UInt32
deriving DecidableEq, Repr

/-- A whole script. -/
structure Source where
  rules : List Rule := []
  hooks : List HookRule := []
  trace : Bool := false
deriving DecidableEq, Repr

end VertexSweep.Script
