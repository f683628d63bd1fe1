import VertexSweep.Graph.EdgeList
import VertexSweep.Match.Labels
import VertexSweep.Match.Pattern
import VertexSweep.Text.Records

/-! Reading edge lists, label lists and patterns from the records of a text. A refused record is
reported with the name of the file and the line on which the search for the record began. -/

namespace VertexSweep.Input

open Records (Record)

def refuse {α : Type} (file : String) (r : Record) (defect : RecordDefect) : Except Fault α :=
  .error (.record file r.line defect)

/-- The number in a field that should hold what `what` says. -/
def number (file : String) (r : Record) (what : String) (field : List Char) :
    Except Fault UInt32 :=
  match Decimal.readWord? field with
  | some n => .ok n
  | none => refuse file r (.badNumber what (String.ofList field))

/-- The edge that a record describes; further fields are ignored. -/
def edge (file : String) (r : Record) : Except Fault (VertexId × VertexId) :=
  match r.fields with
  | source :: target :: _ => do
    let s ← number file r "source vertex" source
    let t ← number file r "target vertex" target
    return (s, t)
  | _ => refuse file r .edgeExpected

def edgeList (file : String) (text : List Char) : Except Fault EdgeList := do
  return .ofList (← (Records.ofText text).mapM (edge file))

/-- The label that a record gives to a vertex; further fields are ignored. -/
def vertexLabel (file : String) (r : Record) : Except Fault (VertexId × Label) :=
  match r.fields with
  | vertex :: label :: _ => do
    let v ← number file r "vertex" vertex
    let l ← number file r "label" label
    return (v, l)
  | _ => refuse file r .labelExpected

/-- Reads a list of labels; vertices that it does not mention get the fallback. -/
def labels (file : String) (fallback : Label) (text : List Char) : Except Fault FixedLabels := do
  return .ofList (← (Records.ofText text).mapM (vertexLabel file)) fallback

/-- What the records of a pattern have declared so far. -/
structure Declared where
  labels : Std.HashMap PatternId Label := {}
  edges : Array (PatternId × PatternId) := #[]

/-- Takes the declaration of a vertex or an edge; further fields are ignored. -/
def declare (file : String) (d : Declared) (r : Record) : Except Fault Declared :=
  match r.fields with
  | ['v'] :: id :: label :: _ => do
    let p ← number file r "pattern vertex" id
    let l ← number file r "label" label
    if d.labels.contains p then refuse file r (.declaredTwice p)
    else return { d with labels := d.labels.insert p l }
  | ['e'] :: source :: target :: _ => do
    let s ← number file r "source vertex" source
    let t ← number file r "target vertex" target
    return { d with edges := d.edges.push (s, t) }
  | _ => refuse file r .patternExpected

/-- The least declared id that is no vertex of a pattern with `n` vertices. -/
def Declared.gap? (d : Declared) (n : Nat) : Option PatternId :=
  ((d.labels.keys.filter (n ≤ ·.toNat)).map (·.toNat)).min?.map UInt32.ofNat

/-- The pattern that was declared; the ids must be those below their number. -/
def Declared.pattern (d : Declared) : Except Fault Pattern :=
  let n := d.labels.size
  match d.gap? n with
  | some id => .error (.pattern (.sparseIds id n))
  | none =>
    let labels := (Pattern.idsBelow n).map fun p => d.labels.getD p 0
    Pattern.build n d.edges labels.toArray

def pattern (file : String) (text : List Char) : Except Fault Pattern := do
  (← (Records.ofText text).foldlM (declare file) {}).pattern

end VertexSweep.Input
