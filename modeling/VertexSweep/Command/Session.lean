import VertexSweep.Command.Arguments
import VertexSweep.Command.Files
import VertexSweep.Command.LogFilter
import VertexSweep.Input.Configuration
import VertexSweep.Input.Readers
import VertexSweep.Match.Simulation
import VertexSweep.Output.Lines
import VertexSweep.Output.Tables
import VertexSweep.Relax.Coloring
import VertexSweep.Relax.ShortestPath

/-! Carrying out a command line: read the configuration, check the logging directive, read the
graph and what else the job needs, run it, write the table that was asked for, and print the
result. The first failure ends the session. -/

namespace VertexSweep.Command

/-- How a session ended. -/
structure Exit where
  /-- Zero for success, one for a failure, two for a malformed command line or a failed audit, and
  `breachCode` if the program was aborted. -/
  code : Nat
  stdout : String := ""
  stderr : String := ""
deriving DecidableEq, Repr, Inhabited

/-- The exit code of a program that was aborted. -/
def breachCode : Nat := 101

def Exit.ofFault (fault : Fault) : Exit where
  code := if fault.isBreach then breachCode else 1
  stderr := "error: " ++ fault.message ++ "\n"

/-- The logging directive when neither the command line, the environment nor the configuration
has one. -/
def defaultLogLevel : String := "warn"

def distanceText (d : UInt32) : String := if d = unreached then "inf" else Decimal.text d.toNat

def plainText (n : UInt32) : String := Decimal.text n.toNat

/-- The settings of a run: those of the configuration, unless the command line overrides them. -/
def runSettings (common : Common) (base : Settings) : Settings where
  maxIterations := common.maxIterations.getD base.maxIterations
  selective := common.selective || base.selective
  intervalSize := common.intervalSize.getD base.intervalSize

section

variable {m : Type → Type} [Monad m] (files : FileAccess m)

def readText (name : String) : ExceptT Fault m (List Char) := do
  match ← files.read name with
  | .error fault => throw (.unreadable fault)
  | .ok bytes =>
    match String.fromUTF8? bytes with
    | some s => return s.toList
    | none => throw (.unreadable .notUtf8)

/-- Writes a file, if a name is given. -/
def writeText (name : Option String) (content : String) : ExceptT Fault m Unit := do
  match name with
  | none => return ()
  | some name =>
    match ← files.write name content with
    | .ok () => return ()
    | .error fault => throw (.unwritable fault)

/-- The configuration, from the file that is named, if one is. -/
def readConfiguration (name : Option String) : ExceptT Fault m Configuration := do
  match name with
  | none => return {}
  | some name => Configuration.ofText name (← readText files name)

def readGraph (graph : GraphFiles) : ExceptT Fault m EdgeList := do
  let l ← Input.edgeList graph.edges (← readText files graph.edges)
  match graph.vertices with
  | none => return l
  | some n => return l.reserve n

def readLabels (options : SimulationOptions) (settings : LabelSettings) :
    ExceptT Fault m (VertexId → Label) := do
  match options.labels with
  | some name => return (← Input.labels name settings.fallback (← readText files name)).labelOf
  | none =>
    let settings := { settings with
      seed := options.seed.getD settings.seed
      domain := options.domain.getD settings.domain }
    return settings.randomLabels.labelOf

def shown (format : Format) (document : Document) (lines : List String) : String :=
  match format with
  | .json => document.pretty ++ "\n"
  | .text => Output.joinLines lines

/-- Writes and prints the result of a relaxation. -/
def finishRelaxed (format : Format) (graph : GraphFiles) (column : String)
    (text : UInt32 → String) (r : Relaxed) : ExceptT Fault m Exit := do
  writeText files graph.out (Output.valueTable column (r.values.toList.map text))
  return {
    code := 0
    stdout := shown format (Output.relaxedDocument r) (Output.relaxedLines column text r) }

def simulate (format : Format) (options : SimulationOptions) (labelSettings : LabelSettings)
    (settings : Settings) : ExceptT Fault m Exit := do
  let l ← readGraph files options.graph
  let pattern ← Input.pattern options.pattern (← readText files options.pattern)
  let labels ← readLabels files options labelSettings
  let found ← Simulation.solve l pattern labels settings
  let audit ← options.verify.mapM fun level =>
    (Audit.ofEdgeList l found.labels pattern found.table level : Except Fault Audit.Result)
  writeText files options.graph.out (Output.matchTable found.table)
  let dropped ← if options.recheck then do
      let again ← Simulation.refineAgain l pattern found.table labels settings
      pure (some again.pruned)
    else pure none
  let account : Output.Account := {
    report := found.report
    statistics := .ofRun found.report pattern found.table
    sets := found.table.liveSets
    audit, dropped }
  return {
    code := match audit with
      | some r => if r.success then 0 else 2
      | none => 0
    stdout := shown format (Output.accountDocument account) (Output.accountLines account) }

def Invocation.carryOut (invocation : Invocation) : ExceptT Fault m Exit := do
  let common := invocation.common
  let config ← readConfiguration files common.config
  let logLevel := (common.logLevel <|> config.logLevel).getD defaultLogLevel
  (LogFilter.check logLevel : Except Fault Unit)
  let settings := runSettings common config.run
  match invocation.job with
  | .shortestPath graph source =>
    let r ← ShortestPath.solve (← readGraph files graph) source settings
    finishRelaxed files common.format graph "distance" distanceText r
  | .coloring graph =>
    let r ← Coloring.solve (← readGraph files graph) settings
    finishRelaxed files common.format graph "color" plainText r
  | .components graph direction =>
    let r ← Components.solve (← readGraph files graph) direction settings
    finishRelaxed files common.format graph "component" plainText r
  | .simulate options => simulate files common.format options config.labels settings

/-- Carries out a command line; `environment` is the logging directive of the environment. -/
def session (environment : Option String) (args : List String) : m Exit := do
  match Invocation.ofArguments environment args with
  | none => return { code := 2, stderr := "error: malformed command line\n" }
  | some invocation =>
    match ← (invocation.carryOut files).run with
    | .ok exit => return exit
    | .error fault => return .ofFault fault

end

end VertexSweep.Command
