import VertexSweep.Match.Audit
import VertexSweep.Match.Statistics
import VertexSweep.Relax.Basic
import VertexSweep.Text.Document

/-! Results as JSON documents. -/

namespace VertexSweep.Output

def roundObject (r : RoundSummary) : Document := .object [
  ("iteration", .word r.iteration),
  ("visited", .number r.visited),
  ("changed", .number r.changed),
  ("scheduled_next", .number r.scheduledNext),
  ("converged", .bool r.converged)]

def reportObject (r : Report) : Document := .object [
  ("outcome", .text r.outcome.snakeCase),
  ("iterations", .word r.iterations),
  ("rounds", .array (r.rounds.toList.map roundObject))]

def relaxedDocument (r : Relaxed) : Document := .object [
  ("report", reportObject r.report),
  ("values", .array (r.values.toList.map .word))]

def statisticsObject (s : Statistics) : Document := .object [
  ("run", .object [
    ("outcome", .text s.run.outcome.lowerCase),
    ("iterations", .word s.run.iterations),
    ("total_changes", .number s.run.totalChanges),
    ("busiest_round", .ofOption .word s.run.busiestRound)]),
  ("candidates", .object [
    ("vertex_capacity", .number s.table.capacity),
    ("pattern_size", .number s.table.width),
    ("live_vertices", .number s.table.liveVertices),
    ("candidate_pairs", .number s.table.pairs),
    ("allocated_sets", .number s.table.allocated),
    ("max_candidates_per_vertex", .number s.table.largest)]),
  ("pattern", .array (s.pattern.map fun p => .object [
    ("vertex", .word p.vertex),
    ("label", .ofOption .word p.label),
    ("out_degree", .number p.outDegree),
    ("matches", .number p.matched)]))]

/-- The candidates of each vertex that has any, under the number of the vertex. -/
def setsObject (sets : List (VertexId × List PatternId)) : Document :=
  .object (sets.map fun (u, ps) => (u.text, .array (ps.map .word)))

def auditObject (r : Audit.Result) : Document := .object [
  ("level", .text r.level.lowerCase),
  ("success", .bool r.success),
  ("findings", .array (r.findings.map fun f => .object [
    ("severity", .text f.severity.lowerCase),
    ("message", .text f.message)])),
  ("counts", .object [
    ("live_vertices", .number r.counts.liveVertices),
    ("candidate_pairs", .number r.counts.candidatePairs),
    ("coverage_checks", .number r.counts.coverageChecks)])]

/-- All that is told about a simulation. -/
structure Account where
  report : Report
  statistics : Statistics
  /-- The candidates of each vertex that has any. -/
  sets : List (VertexId × List PatternId)
  /-- The audit, if one was wanted. -/
  audit : Option Audit.Result
  /-- How many candidates a second refinement dropped, if one was wanted. -/
  dropped : Option Nat
deriving DecidableEq, Repr, Inhabited

def accountDocument (a : Account) : Document := .object ([
  ("report", reportObject a.report),
  ("stats", statisticsObject a.statistics),
  ("matches", setsObject a.sets)] ++
  (a.audit.map fun r => ("verify", auditObject r)).toList ++
  (a.dropped.map fun n => ("recheck_prunes", .number n)).toList)

end VertexSweep.Output
