import VertexSweep.Id

/-! What a run records: the activity of one update, the summary of one iteration, and the report
of the whole run with the way it ended. -/

namespace VertexSweep

/-- What an update did to the state of the computation. -/
inductive Activity where
  /-- It left vertex, edges and program state as they were. -/
  | quiet
  /-- It changed something. -/
  | changed
deriving DecidableEq, Repr, Inhabited

namespace Activity

/-- The activity of an update that did or did not change something. -/
def ofChanged (b : Bool) : Activity := if b then .changed else .quiet

def isChanged : Activity → Bool
  | .quiet => false
  | .changed => true

/-- The activity of two updates taken together. -/
def or (a b : Activity) : Activity := ofChanged (a.isChanged || b.isChanged)

end Activity

/-- One iteration of a run. -/
structure RoundSummary where
  /-- The number of the iteration, from zero. -/
  iteration : UInt32
  /-- How many vertices were updated. -/
  visited : Nat
  /-- How many updates reported a change. -/
  changed : Nat
  /-- How many vertices were requested for the next iteration when this one ended. -/
  scheduledNext : Nat
  /-- Whether nothing changed; iteration 0 never counts as such. -/
  converged : Bool
deriving DecidableEq, Repr, Inhabited

/-- The summary of an iteration with the given counts. -/
def RoundSummary.ofCounts (iteration : UInt32) (visited changed scheduledNext : Nat) :
    RoundSummary :=
  { iteration, visited, changed, scheduledNext, converged := 0 < iteration && changed == 0 }

/-- How a run ended. -/
inductive Outcome where
  /-- An iteration changed nothing, or no task was left. -/
  | converged
  /-- A hook asked for the end. -/
  | halted
  /-- The iteration ceiling was reached first. -/
  | iterationLimit
deriving DecidableEq, Repr, Inhabited

namespace Outcome

def name : Outcome → String
  | converged => "Converged"
  | halted => "Halted"
  | iterationLimit => "IterationLimit"

/-- The outcome in lower case, with its words joined by underscores. -/
def snakeCase : Outcome → String
  | converged => "converged"
  | halted => "halted"
  | iterationLimit => "iteration_limit"

/-- The outcome in lower case, with its words run together. -/
def lowerCase : Outcome → String
  | converged => "converged"
  | halted => "halted"
  | iterationLimit => "iterationlimit"

end Outcome

/-- The account of a run. -/
structure Report where
  outcome : Outcome
  /-- How many iterations were carried out, iteration 0 included. -/
  iterations : UInt32
  rounds : Array RoundSummary
deriving DecidableEq, Repr, Inhabited

namespace Report

def isConverged (r : Report) : Bool := r.outcome == .converged

/-- The number of the last iteration, if there was any. -/
def lastIteration? (r : Report) : Option UInt32 := r.rounds.back?.map (·.iteration)

/-- How many updates reported a change, over the whole run, as a 64-bit word. -/
def totalChanges (r : Report) : Nat :=
  r.rounds.foldl (fun sum round => sum + round.changed) 0 % 18446744073709551616

end Report

end VertexSweep
