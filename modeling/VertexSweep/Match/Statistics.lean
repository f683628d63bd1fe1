import VertexSweep.Match.Candidates
import VertexSweep.Match.Pattern
import VertexSweep.Sweep.Round

/-! Figures about a run, the candidate table that it left, and the pattern. -/

namespace VertexSweep

/-- Figures about a run. -/
structure RunFigures where
  outcome : Outcome
  iterations : UInt32
  totalChanges : Nat
  /-- The last of the rounds with the most changes, if anything changed at all. -/
  busiestRound : Option UInt32
deriving DecidableEq, Repr, Inhabited

/-- Figures about a candidate table. -/
structure TableFigures where
  capacity : Nat
  width : Nat
  liveVertices : Nat
  pairs : Nat
  allocated : Nat
  /-- The size of the largest candidate set. -/
  largest : Nat
deriving DecidableEq, Repr, Inhabited

/-- Figures about one pattern vertex. -/
structure PatternFigures where
  vertex : PatternId
  label : Option Label
  outDegree : Nat
  /-- How many data vertices have it as a candidate. -/
  matched : Nat
deriving DecidableEq, Repr, Inhabited

/-- All figures together. -/
structure Statistics where
  run : RunFigures
  table : TableFigures
  pattern : List PatternFigures
deriving DecidableEq, Repr, Inhabited

/-- The last round with the most changes, if anything changed at all. -/
def busiestRound? (rounds : List RoundSummary) : Option RoundSummary :=
  rounds.foldl
    (fun best round =>
      if round.changed = 0 then best
      else match best with
        | none => some round
        | some b => if b.changed ≤ round.changed then some round else some b)
    none

namespace Statistics

/-- The figures of a run with the given report, pattern and table. -/
def ofRun (report : Report) (pattern : Pattern) (table : Candidates) : Statistics where
  run := {
    outcome := report.outcome
    iterations := report.iterations
    totalChanges := report.totalChanges
    busiestRound := (busiestRound? report.rounds.toList).map (·.iteration) }
  table := {
    capacity := table.capacity
    width := table.width
    liveVertices := table.liveCount
    pairs := table.total
    allocated := table.allocated
    largest := (table.liveVertices.map table.count).foldl max 0 }
  pattern := pattern.vertices.map fun p => {
    vertex := p
    label := pattern.labelOf? p
    outDegree := (pattern.neighborsOf p).length
    matched := (table.matchesOf p).length }

end Statistics

end VertexSweep
