import VertexSweep.Graph.Adjacency
import VertexSweep.Match.Candidates
import VertexSweep.Match.Pattern

/-! Auditing a candidate table against the graph, the labels and the pattern, without a run. A
fast audit checks the dimensions and that every candidate has the label of its vertex; a full one
also checks that every candidate is covered. Only the first few findings are kept. -/

namespace VertexSweep.Audit

/-- How deep an audit goes. -/
inductive Level where
  /-- Dimensions and labels. -/
  | fast
  /-- Dimensions, labels and coverage. -/
  | full
deriving DecidableEq, Repr, Inhabited

/-- The level as one lower-case word. -/
def Level.lowerCase : Level → String
  | .fast => "fast"
  | .full => "full"

def Level.name : Level → String
  | .fast => "Fast"
  | .full => "Full"

/-- How much a finding matters. -/
inductive Severity where
  /-- The relation may still be a simulation. -/
  | warning
  /-- The relation is no simulation. -/
  | error
deriving DecidableEq, Repr, Inhabited

/-- The severity as one lower-case word. -/
def Severity.lowerCase : Severity → String
  | .warning => "warning"
  | .error => "error"

def Severity.name : Severity → String
  | .warning => "Warning"
  | .error => "Error"

/-- What an audit can find. -/
inductive Finding where
  /-- The table does not have as many vertices as the graph. -/
  | capacity (table graph : Nat)
  /-- There are not as many labels as vertices. -/
  | labelCount (labels vertices : Nat)
  /-- The table is not as wide as the pattern. -/
  | width (table pattern : Nat)
  /-- The table was never sealed. -/
  | unsealed
  /-- A vertex has a candidate with another label. -/
  | labelsDiffer (u : VertexId) (p : PatternId)
  /-- A vertex has the candidate `p`, but no out-neighbor with the label of `q` has `q`. -/
  | uncovered (u : VertexId) (p q : PatternId)
deriving DecidableEq, Repr

namespace Finding

/-- An unsealed table is a warning; all else is an error. -/
def severity : Finding → Severity
  | unsealed => .warning
  | _ => .error

def message : Finding → String
  | capacity table graph =>
    "table indexes " ++ Decimal.text table ++ " vertices, graph has " ++ Decimal.text graph
  | labelCount labels vertices =>
    Decimal.text labels ++ " labels for " ++ Decimal.text vertices ++ " vertices"
  | width table pattern =>
    "table is " ++ Decimal.text table ++ " pattern vertices wide, pattern has " ++
      Decimal.text pattern
  | unsealed => "candidate table was never sealed; refinement did not run"
  | labelsDiffer u p =>
    "vertex " ++ u.text ++ " holds " ++ p.text ++
      " but their labels differ"
  | uncovered u p q =>
    "vertex " ++ u.text ++ " holds " ++ p.text ++
      " but no out-neighbour holds " ++ q.text

end Finding

/-- What was examined. -/
structure Counts where
  liveVertices : Nat := 0
  /-- Pairs of a vertex and a candidate. -/
  candidatePairs : Nat := 0
  /-- Pattern edges that were checked for coverage. -/
  coverageChecks : Nat := 0
deriving DecidableEq, Repr, Inhabited

/-- The result of an audit. -/
structure Result where
  level : Level
  /-- Whether nothing that was kept is an error. -/
  success : Bool
  findings : List Finding
  counts : Counts
deriving DecidableEq, Repr, Inhabited

/-- The greatest number of findings that are kept. -/
def maxFindings : Nat := 32

section

variable (g : Adjacency) (labels : Array Label) (pattern : Pattern) (table : Candidates)

/-- Whether some out-neighbor of `u` has the label of `q` and the candidate `q`. -/
def isCovered (u : VertexId) (q : PatternId) : Bool :=
  (g.outNeighbors u).any fun v => labels[v.toNat]? == pattern.labelOf? q && table.contains v q

/-- The pairs of a vertex and one of its candidates, in ascending order. -/
def pairs : List (VertexId × PatternId) :=
  table.liveSets.flatMap fun (u, ps) => ps.map fun p => (u, p)

/-- Whether a vertex and its candidate have the same label. -/
def labelsAgree (pair : VertexId × PatternId) : Bool :=
  labels[pair.1.toNat]? == pattern.labelOf? pair.2

/-- The pattern edges on which the coverage of a pair depends; none if the labels differ. -/
def demands (pair : VertexId × PatternId) : List PatternId :=
  if labelsAgree labels pattern pair then pattern.neighborsOf pair.2 else []

def pairFindings (level : Level) (pair : VertexId × PatternId) : List Finding :=
  if labelsAgree labels pattern pair then
    match level with
    | .fast => []
    | .full => ((pattern.neighborsOf pair.2).filter
        (!isCovered g labels pattern table pair.1 ·)).map (.uncovered pair.1 pair.2 ·)
  else [.labelsDiffer pair.1 pair.2]

/-- What is wrong with the dimensions, and whether the table was left open. -/
def shapeFindings : List Finding :=
  (if table.capacity ≠ g.vertexCount then [.capacity table.capacity g.vertexCount] else []) ++
  (if labels.size ≠ g.vertexCount then [.labelCount labels.size g.vertexCount] else []) ++
  (if table.width ≠ pattern.vertexCount then [.width table.width pattern.vertexCount] else []) ++
  (if table.isSealed then [] else [.unsealed])

/-- Everything that an audit finds. -/
def allFindings (level : Level) : List Finding :=
  shapeFindings g labels pattern table ++
    (pairs table).flatMap (pairFindings g labels pattern table level)

/-- Audits a table against an accepted graph. -/
def ofAdjacency (level : Level) : Result :=
  let findings := (allFindings g labels pattern table level).take maxFindings
  { level
    success := findings.all (·.severity != .error)
    findings
    counts := {
      liveVertices := table.liveCount
      candidatePairs := table.total
      coverageChecks := match level with
        | .fast => 0
        | .full => ((pairs table).flatMap (demands labels pattern)).length } }

end

/-- Audits a table against the graph of an edge list; fails only if there is no such graph. -/
def ofEdgeList (l : EdgeList) (labels : Array Label) (pattern : Pattern) (table : Candidates)
    (level : Level) : Except Fault Result := do
  return ofAdjacency (← Adjacency.ofEdgeList l) labels pattern table level

end VertexSweep.Audit
