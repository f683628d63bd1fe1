import VertexSweep.Id

/-! Everything that can go wrong, told by its cause. `Fault.message` is the one place that puts a
cause into words. -/

namespace VertexSweep

/-- Why an edge list is no data graph, or none that the requested run can start on. -/
inductive GraphDefect where
  /-- Edge ids are 32-bit words, and there are more edges than that. -/
  | tooManyEdges (edges : Nat)
  /-- The ids on the edges imply far more vertices than the edges account for. -/
  | strayVertex (vertices edges : Nat)
  /-- The source of a shortest-path run is no vertex of the graph. -/
  | sourceOutside (source : VertexId) (vertices : Nat)
deriving DecidableEq, Repr

/-- Why a description is no pattern. -/
inductive PatternDefect where
  /-- The number of labels differs from the number of vertices. -/
  | labelCount (expected got : Nat)
  /-- Pattern ids are 32-bit words, and there are more vertices than that. -/
  | tooLarge (vertices : Nat)
  /-- An edge names a vertex that the pattern does not have. -/
  | edgeOutside (source target endpoint : PatternId) (vertices : Nat)
  /-- The declared vertex ids leave a gap. -/
  | sparseIds (id : PatternId) (vertices : Nat)
deriving DecidableEq, Repr

/-- Why an operation on one data vertex is forbidden in the present state. -/
inductive Misuse where
  /-- The vertex lies outside the candidate table. -/
  | outsideTable
  /-- A candidate was added after the table was sealed. -/
  | seededAfterSeal
  /-- A candidate was pruned from a vertex that has none. -/
  | prunedWithoutCandidates
  /-- The candidate set of a vertex that has none was read. -/
  | readWithoutCandidates
  /-- A scripted update asked to fail. -/
  | scripted
deriving DecidableEq, Repr

/-- Why a record of an input file is refused. -/
inductive RecordDefect where
  /-- An edge record has fewer than two fields. -/
  | edgeExpected
  /-- A label record has fewer than two fields. -/
  | labelExpected
  /-- A pattern record is neither a vertex nor an edge declaration. -/
  | patternExpected
  /-- A field that should hold the number called `what` does not. -/
  | badNumber (what raw : String)
  /-- A pattern vertex is declared a second time. -/
  | declaredTwice (id : PatternId)
deriving DecidableEq, Repr

/-- Why a file cannot be read or written. -/
inductive FileFault where
  | notFound
  | notDirectory
  | isDirectory
  | denied
  /-- A name, or the whole path, is too long. -/
  | nameTooLong
  /-- A name holds a null character. -/
  | nulInName
  | notUtf8
deriving DecidableEq, Repr

/-- What ended an operation. -/
inductive Fault where
  | graph (defect : GraphDefect)
  | pattern (defect : PatternDefect)
  /-- An operation on a data vertex was forbidden. -/
  | misuse (vertex : VertexId) (reason : Misuse)
  /-- A pattern vertex beyond the width of the candidate table. -/
  | patternOutOfRange (p : PatternId) (width : Nat)
  /-- A record that begins to be looked for on the given line of the file is refused. -/
  | record (file : String) (line : Nat) (defect : RecordDefect)
  /-- A configuration file is not well formed, or a setting has the wrong type or range. -/
  | settings (file : String)
  /-- A logging directive is not well formed. -/
  | logFilter (directive : String)
  | unreadable (cause : FileFault)
  | unwritable (cause : FileFault)
  /-- An update addressed an incident edge that its vertex does not have. -/
  | noSuchEdge
  /-- A text was cut inside a character. -/
  | splitCharacter
  /-- A table was to have more entries than memory has addresses. -/
  | unaddressable (entries : Nat)
deriving DecidableEq, Repr

namespace GraphDefect

/-- The wording of a defect of the data graph. -/
def message : GraphDefect → String
  | tooManyEdges edges => Decimal.text edges ++ " edges exceed the 32-bit edge id space"
  | strayVertex vertices edges =>
    "vertex id " ++ Decimal.text (vertices - 1) ++ " implies " ++ Decimal.text vertices ++
      " vertices for only " ++ Decimal.text edges ++
      " edges; reserve the vertex count explicitly if this is intended"
  | sourceOutside source vertices =>
    "source " ++ source.text ++ " outside graph of " ++ Decimal.text vertices ++
      " vertices"

end GraphDefect

namespace PatternDefect

/-- The wording of a defect of the pattern. -/
def message : PatternDefect → String
  | labelCount expected got =>
    "expected " ++ Decimal.text expected ++ " labels, got " ++ Decimal.text got
  | tooLarge vertices => "pattern too large: " ++ Decimal.text vertices
  | edgeOutside source target endpoint vertices =>
    "edge (" ++ Decimal.text source.toNat ++ ", " ++ Decimal.text target.toNat ++
      ") references vertex " ++ Decimal.text endpoint.toNat ++ " outside [0, " ++
      Decimal.text vertices ++ ")"
  | sparseIds id vertices =>
    "vertex ids must be dense: " ++ Decimal.text id.toNat ++ " declared but only " ++
      Decimal.text vertices ++ " vertices present"

end PatternDefect

namespace Misuse

def message : Misuse → String
  | outsideTable => "vertex outside candidate table"
  | seededAfterSeal => "candidate seeded after table was sealed"
  | prunedWithoutCandidates => "prune on vertex without candidates"
  | readWithoutCandidates => "candidate set read on unset indicator"
  | scripted => "scripted failure"

end Misuse

namespace RecordDefect

def message : RecordDefect → String
  | edgeExpected => "expected `src dst`"
  | labelExpected => "expected `vertex label`"
  | patternExpected => "expected `v <id> <label>` or `e <src> <dst>`"
  | badNumber what raw => "invalid " ++ what ++ " `" ++ raw ++ "`"
  | declaredTwice id => "vertex " ++ Decimal.text id.toNat ++ " declared twice"

end RecordDefect

namespace FileFault

def message : FileFault → String
  | notFound => "No such file or directory (os error 2)"
  | notDirectory => "Not a directory (os error 20)"
  | isDirectory => "Is a directory (os error 21)"
  | denied => "Permission denied (os error 13)"
  | nameTooLong => "File name too long (os error 36)"
  | nulInName => "file name contained an unexpected NUL byte"
  | notUtf8 => "stream did not contain valid UTF-8"

end FileFault

namespace Fault

def message : Fault → String
  | graph defect => "invalid graph: " ++ defect.message
  | pattern defect => "invalid pattern: " ++ defect.message
  | misuse vertex reason =>
    "invariant violated at vertex " ++ vertex.text ++ ": " ++ reason.message
  | patternOutOfRange p width =>
    "pattern vertex " ++ p.text ++ " out of range (pattern has " ++
      Decimal.text width ++ " vertices)"
  | record file line defect => file ++ ":" ++ Decimal.text line ++ ": " ++ defect.message
  | settings file => "config " ++ file ++ ": not a valid configuration"
  | logFilter directive => "invalid argument: invalid log level: " ++ directive
  | unreadable cause | unwritable cause => cause.message
  | noSuchEdge => "incident edge index out of range"
  | splitCharacter => "cut inside a character"
  | unaddressable entries => "table of " ++ Decimal.text entries ++ " entries"

/-- Whether a fault is a breach that no caller is prepared for. Such a fault does not fail an
operation but aborts the whole program. -/
def isBreach : Fault → Bool
  | noSuchEdge | splitCharacter | unaddressable _ => true
  | _ => false

end Fault

end VertexSweep
