import VertexSweep.Output.Documents

/-! Results as lines of plain text. -/

namespace VertexSweep.Output

def truth (b : Bool) : String := if b then "true" else "false"

/-- The line that sums up a report. -/
def reportLine (r : Report) : String :=
  "outcome=" ++ r.outcome.name ++ " iterations=" ++ Decimal.text r.iterations.toNat ++
    " changes=" ++ Decimal.text r.totalChanges

/-- The lines for a relaxation whose values are shown by `text`. -/
def relaxedLines (column : String) (text : UInt32 → String) (r : Relaxed) : List String :=
  reportLine r.report :: ("vertex " ++ column) ::
    r.values.toList.mapIdx fun v value => Decimal.text v ++ " " ++ text value

/-- The line for the figures of a candidate table. -/
def tableLine (f : TableFigures) : String :=
  "Candidates: live_vertices=" ++ Decimal.text f.liveVertices ++ " pairs=" ++
    Decimal.text f.pairs ++ " allocated_sets=" ++ Decimal.text f.allocated ++
    " max_per_vertex=" ++ Decimal.text f.largest

/-- The line for the figures of a pattern vertex. -/
def patternLine (f : PatternFigures) : String :=
  "  " ++ f.vertex.text ++ " (label=" ++ (f.label.map Label.text).getD "?" ++ "): out_degree=" ++
    Decimal.text f.outDegree ++ " matches=" ++ Decimal.text f.matched

/-- The line for the candidates of a vertex. -/
def setLine (set : VertexId × List PatternId) : String :=
  "  " ++ set.1.text ++ ": " ++ " ".intercalate (set.2.map PatternId.text)

def auditLines (r : Audit.Result) : List String :=
  ("Verify (" ++ r.level.name ++ ") => success=" ++ truth r.success ++ " live_vertices=" ++
    Decimal.text r.counts.liveVertices ++ " candidate_pairs=" ++
    Decimal.text r.counts.candidatePairs ++ " coverage_checks=" ++
    Decimal.text r.counts.coverageChecks) ::
  r.findings.map fun f => "- " ++ f.severity.name ++ ": " ++ f.message

def accountLines (a : Account) : List String :=
  reportLine a.report :: tableLine a.statistics.table ::
    a.statistics.pattern.map patternLine ++ "Matches:" :: a.sets.map setLine ++
    (a.audit.map auditLines).getD [] ++
    (a.dropped.map fun n => "Recheck: prunes=" ++ Decimal.text n).toList

/-- Lines, each with its line end. -/
def joinLines (ls : List String) : String := String.join (ls.map (· ++ "\n"))

end VertexSweep.Output
