import VertexSweep.Match.Audit
import VertexSweep.Relax.Components

/-! Command-line arguments. Options are written `--name`, and if they take a value `--name value`
or `--name=value`; a value that starts with a hyphen must be written the second way. Every option
is given at most once on each side of the command; those that every command has may stand on
either side, and the later side counts. -/

namespace VertexSweep.Command

/-- How results are printed. -/
inductive Format where
  | text
  | json
deriving DecidableEq, Repr, Inhabited

/-- The options that every command has. -/
structure Common where
  format : Format := .text
  config : Option String := none
  maxIterations : Option UInt32 := none
  selective : Bool := false
  intervalSize : Option Nat := none
  logLevel : Option String := none
deriving DecidableEq, Repr, Inhabited

/-- Where the graph comes from, and where the result goes to. -/
structure GraphFiles where
  edges : String
  /-- The least number of vertices. -/
  vertices : Option Nat := none
  out : Option String := none
deriving DecidableEq, Repr, Inhabited

/-- How a simulation is to be carried out. -/
structure SimulationOptions where
  graph : GraphFiles
  pattern : String
  /-- A list of labels; without one, labels are random. -/
  labels : Option String := none
  seed : Option UInt64 := none
  domain : Option UInt32 := none
  verify : Option Audit.Level := none
  /-- Whether to refine the result a second time. -/
  recheck : Bool := false
deriving DecidableEq, Repr, Inhabited

/-- What is to be done. -/
inductive Job where
  | shortestPath (graph : GraphFiles) (source : UInt32)
  | coloring (graph : GraphFiles)
  | components (graph : GraphFiles) (direction : Components.Direction)
  | simulate (options : SimulationOptions)
deriving DecidableEq, Repr

/-- A whole command line. -/
structure Invocation where
  common : Common
  job : Job
deriving DecidableEq, Repr

/-- An option, by its name without hyphens. -/
structure OptionKind where
  name : String
  takesValue : Bool := true
deriving DecidableEq, Repr

/-- The options that every command has. -/
def commonOptions : List OptionKind :=
  [⟨"format", true⟩, ⟨"config", true⟩, ⟨"max-iterations", true⟩, ⟨"selective", false⟩,
    ⟨"interval-size", true⟩, ⟨"log-level", true⟩]

def graphOptions : List OptionKind := [⟨"edges", true⟩, ⟨"vertices", true⟩, ⟨"out", true⟩]

/-- The options that a command has of its own. -/
def ownOptions? (command : String) : Option (List OptionKind) :=
  match command with
  | "sssp" => some (graphOptions ++ [⟨"source", true⟩])
  | "coloring" => some graphOptions
  | "components" => some (graphOptions ++ [⟨"directed", false⟩])
  | "simulate" => some (graphOptions ++ [⟨"pattern", true⟩, ⟨"labels", true⟩, ⟨"seed", true⟩,
      ⟨"domain", true⟩, ⟨"verify", true⟩, ⟨"recheck", false⟩])
  | _ => none

/-- The options that were given, each with its value; flags have an empty one. -/
abbrev Given := List (String × String)

/-- Notes an option, unless it was given before. -/
def note (given : Given) (name value : String) : Option Given :=
  if (given.lookup name).isSome then none else some (given ++ [(name, value)])

/-- The name in an argument that is an option, and the value that is attached to it, if any. -/
def splitOption? (arg : String) : Option (String × Option String) :=
  match arg.toList with
  | '-' :: '-' :: rest =>
    if rest.isEmpty then none
    else
      let name := rest.takeWhile (· != '=')
      match rest.dropWhile (· != '=') with
      | [] => some (String.ofList name, none)
      | _ :: value => some (String.ofList name, some (String.ofList value))
  | _ => none

/-- Whether an argument can be the value of the option before it. -/
def isValue (arg : String) : Bool :=
  match arg.toList with
  | '-' :: _ :: _ => false
  | _ => true

/-- Takes options from the front of the arguments, up to the first argument that is none. -/
def takeOptions (kinds : List OptionKind) (given : Given) :
    List String → Option (Given × List String)
  | [] => some (given, [])
  | arg :: args =>
    match splitOption? arg with
    | none => some (given, arg :: args)
    | some (name, attached) => do
      let kind ← kinds.find? (·.name == name)
      match kind.takesValue, attached with
      | false, none => takeOptions kinds (← note given name "") args
      | false, some _ => none
      | true, some value => takeOptions kinds (← note given name value) args
      | true, none =>
        match args with
        | [] => none
        | value :: args =>
          if isValue value then takeOptions kinds (← note given name value) args else none

/-- The value of an option that may be missing; none if it is malformed. -/
def optional {α : Type} (given : Given) (name : String) (read : String → Option α) :
    Option (Option α) :=
  match given.lookup name with
  | none => some none
  | some value => do return some (← read value)

def flag (given : Given) (name : String) : Bool := (given.lookup name).isSome

/-- A file name, which must not be empty. -/
def fileName (s : String) : Option String := if s.isEmpty then none else some s

/-- A word, in digits after at most one sign; a negative one can only be zero. -/
def word (s : String) : Option UInt32 :=
  match s.toList with
  | '-' :: rest => do
    let n ← Decimal.read? rest
    if n = 0 then return 0 else none
  | cs => Decimal.readWord? cs

/-- A number of 64 bits, in digits after at most one plus sign. -/
def longNumber (s : String) : Option Nat := Decimal.readAtMost? 18446744073709551615 s.toList

def formatOf (s : String) : Option Format :=
  match s with
  | "text" => some .text
  | "json" => some .json
  | _ => none

/-- A level of audits by its name. -/
def levelOf (s : String) : Option Audit.Level :=
  match s with
  | "fast" => some .fast
  | "full" => some .full
  | _ => none

/-- The common options on one side of the command, over those of the other side. -/
def Common.refine (base : Common) (given : Given) : Option Common := do
  return {
    format := (← optional given "format" formatOf).getD base.format
    config := (← optional given "config" fileName) <|> base.config
    maxIterations := (← optional given "max-iterations" word) <|> base.maxIterations
    selective := base.selective || flag given "selective"
    intervalSize := (← optional given "interval-size" longNumber) <|> base.intervalSize
    logLevel := (← optional given "log-level" some) <|> base.logLevel }

/-- The files that the options about the graph name. -/
def graphFiles (given : Given) : Option GraphFiles := do
  return {
    edges := ← fileName (← given.lookup "edges")
    vertices := ← optional given "vertices" longNumber
    out := ← optional given "out" fileName }

/-- The job that a command and its options describe. -/
def jobOf (command : String) (given : Given) : Option Job := do
  let graph ← graphFiles given
  match command with
  | "sssp" => return .shortestPath graph ((← optional given "source" word).getD 0)
  | "coloring" => return .coloring graph
  | "components" =>
    return .components graph (if flag given "directed" then .directed else .undirected)
  | "simulate" =>
    return .simulate {
      graph
      pattern := ← fileName (← given.lookup "pattern")
      labels := ← optional given "labels" fileName
      seed := (← optional given "seed" longNumber).map UInt64.ofNat
      domain := ← optional given "domain" word
      verify := ← optional given "verify" levelOf
      recheck := flag given "recheck" }
  | _ => none

/-- The invocation that the arguments describe, if they are well formed. The logging directive of
the environment counts unless one is given. -/
def Invocation.ofArguments (environment : Option String) (args : List String) :
    Option Invocation := do
  let (before, rest) ← takeOptions commonOptions [] args
  match rest with
  | [] => none
  | command :: rest =>
    let own ← ownOptions? command
    let (after, rest) ← takeOptions (commonOptions ++ own) [] rest
    if rest = [] ∨ rest = ["--"] then
      let common ← (← Common.refine {} before).refine after
      let job ← jobOf command after
      return ⟨{ common with logLevel := common.logLevel <|> environment }, job⟩
    else none

end VertexSweep.Command
