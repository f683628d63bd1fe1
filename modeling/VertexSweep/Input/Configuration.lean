import VertexSweep.Fault
import VertexSweep.Match.Labels
import VertexSweep.Sweep.Settings
import VertexSweep.Toml.Document

/-! Configuration files. A configuration has a section for the run, a section for labels, and a
logging directive; whatever it does not mention keeps its default, and what it mentions beyond
that is ignored. A section is a table, or an array that lists its settings in order; a date sets
nothing. -/

namespace VertexSweep

/-- The settings for labels. -/
structure LabelSettings where
  seed : UInt64 := 0
  /-- Random labels lie below this. -/
  domain : UInt32 := 4
  /-- The label of the vertices that a list of labels does not mention. -/
  fallback : UInt32 := 0
deriving DecidableEq, Repr, Inhabited

/-- The random labels that the settings describe. -/
def LabelSettings.randomLabels (s : LabelSettings) : RandomLabels := .ofSeed s.seed s.domain

/-- The settings of a configuration file. -/
structure Configuration where
  run : Settings := {}
  labels : LabelSettings := {}
  /-- The logging directive to use when no other is given. -/
  logLevel : Option String := none
deriving DecidableEq, Repr, Inhabited

namespace Configuration

open Toml (Node Entries)

/-- A number from zero up to a bound. -/
def nat? (bound : Nat) : Node → Option Nat
  | .integer n => if 0 ≤ n ∧ n.toNat ≤ bound then some n.toNat else none
  | _ => none

def bool? : Node → Option Bool
  | .boolean b => some b
  | _ => none

def text? : Node → Option String
  | .text s => some s
  | _ => none

/-- A value for each of the given keys, as far as a section sets them. -/
def section? (keys : List String) : Node → Option (List (Option Node))
  | .table _ entries => some (keys.map fun key => Entries.find? entries key)
  | .array items => some (keys.mapIdx fun i _ => items[i]?)
  | .moment _ => some (keys.map fun _ => none)
  | _ => none

/-- Reads a setting that may be missing. -/
def setting? {α : Type} (read : Node → Option α) (default : α) : Option Node → Option α
  | none => some default
  | some n => read n

def run? (node : Node) : Option Settings := do
  let base : Settings := {}
  match ← section? ["max_iterations", "selective_scheduling", "interval_size"] node with
  | [ceiling, selective, size] =>
    return {
      maxIterations := ← setting? (fun n => (nat? 4294967295 n).map UInt32.ofNat)
        base.maxIterations ceiling
      selective := ← setting? bool? base.selective selective
      intervalSize := ← setting? (nat? 18446744073709551615) base.intervalSize size }
  | _ => none

def labels? (node : Node) : Option LabelSettings := do
  let base : LabelSettings := {}
  match ← section? ["seed", "domain", "default"] node with
  | [seed, domain, fallback] =>
    return {
      seed := ← setting? (fun n => (nat? 18446744073709551615 n).map UInt64.ofNat) base.seed seed
      domain := ← setting? (fun n => (nat? 4294967295 n).map UInt32.ofNat) base.domain domain
      fallback := ← setting? (fun n => (nat? 4294967295 n).map UInt32.ofNat)
        base.fallback fallback }
  | _ => none

/-- The configuration that the entries of a document describe. -/
def ofEntries? (entries : Entries) : Option Configuration := do
  let base : Configuration := {}
  return {
    run := ← setting? run? base.run (entries.find? "engine")
    labels := ← setting? labels? base.labels (entries.find? "labels")
    logLevel := ← setting? (fun n => (text? n).map some) base.logLevel
      (entries.find? "log_level") }

def ofText (file : String) (text : List Char) : Except Fault Configuration :=
  match (Toml.ofText text).bind ofEntries? with
  | some c => .ok c
  | none => .error (Fault.settings file)

end Configuration

end VertexSweep
