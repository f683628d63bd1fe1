import VertexSweep.Fault

/-! Patterns: small labelled graphs to be matched. The out-neighbors of all vertices stand one
after the other in one array, and 32-bit offsets tell where those of each vertex begin. -/

namespace VertexSweep

/-- A labelled pattern. -/
structure Pattern where
  /-- Where the neighbors of each vertex begin, and after the last of them where they end. -/
  offsets : Array UInt32
  targets : Array PatternId
  labels : Array Label
deriving DecidableEq, Repr, Inhabited

namespace Pattern

/-- Counts one more edge for its source. Counters are 32-bit words, which wrap around. -/
def countOne (counts : Array UInt32) (e : PatternId × PatternId) : Array UInt32 :=
  counts.modify e.1.toNat (· + 1)

/-- How many edges leave each of the `n` vertices. -/
def degrees (n : Nat) (edges : Array (PatternId × PatternId)) : Array UInt32 :=
  edges.foldl countOne (Array.replicate n 0)

/-- Running sums from `start` on, in 32-bit words. -/
def runningSums (start : UInt32) : List UInt32 → List UInt32
  | [] => [start]
  | degree :: rest => start :: runningSums (start + degree) rest

/-- Where the neighbors of each vertex begin, and after the last of them where they end. -/
def offsetsOf (n : Nat) (edges : Array (PatternId × PatternId)) : Array UInt32 :=
  (runningSums 0 (degrees n edges).toList).toArray

/-- Puts the target of an edge where the cursor of its source stands, and moves that cursor on. -/
def place : Array UInt32 × Array PatternId → PatternId × PatternId →
    Array UInt32 × Array PatternId
  | (cursors, targets), e =>
    let slot := cursors.getD e.1.toNat 0
    (countOne cursors e, targets.setIfInBounds slot.toNat e.2)

/-- Before any edge is placed the cursors stand where the neighbors of each vertex begin. -/
def unfilled (n : Nat) (edges : Array (PatternId × PatternId)) : Array UInt32 × Array PatternId :=
  ((offsetsOf n edges).extract 0 n, Array.replicate edges.size 0)

/-- The first endpoint of an edge that is no vertex of a pattern with `n` vertices. -/
def strayEnd? (n : Nat) (e : PatternId × PatternId) : Option PatternDefect :=
  if n ≤ e.1.toNat then some (.edgeOutside e.1 e.2 e.1 n)
  else if n ≤ e.2.toNat then some (.edgeOutside e.1 e.2 e.2 n)
  else none

/-- The pattern with `n` vertices, the given edges and the given labels. The neighbors of a vertex
keep the order of the edges. -/
def build (n : Nat) (edges : Array (PatternId × PatternId)) (labels : Array Label) :
    Except Fault Pattern :=
  if labels.size ≠ n then
    .error (.pattern (.labelCount n labels.size))
  else if maxWord < n then
    .error (.pattern (.tooLarge n))
  else
    match edges.findSome? (strayEnd? n) with
    | some defect => .error (.pattern defect)
    | none =>
      .ok {
        offsets := offsetsOf n edges
        targets := (edges.foldl place (unfilled n edges)).2
        labels }

/-- The ids below `n`. -/
def idsBelow (n : Nat) : List PatternId := (List.range n).map UInt32.ofNat

/-- An edge from every vertex below `n` to every other, sorted by source. -/
def cliqueEdges (n : Nat) : Array (PatternId × PatternId) :=
  ((idsBelow n).flatMap fun p => ((idsBelow n).filter (· ≠ p)).map fun q => (p, q)).toArray

/-- The pattern on the given labels in which every vertex has an edge to every other. -/
def clique (labels : Array Label) : Except Fault Pattern :=
  build labels.size (cliqueEdges labels.size) labels

/-- How many vertices there are. -/
def vertexCount (t : Pattern) : Nat := t.labels.size

/-- How many edges there are. -/
def edgeCount (t : Pattern) : Nat := t.targets.size

/-- The out-neighbors of `p`, none if `p` is no vertex of the pattern. -/
def neighborsOf (t : Pattern) (p : PatternId) : List PatternId :=
  if t.vertexCount ≤ p.toNat then []
  else
    (t.targets.extract (t.offsets.getD p.toNat 0).toNat
      (t.offsets.getD (p.toNat + 1) 0).toNat).toList

/-- The label of `p`. -/
def labelOf? (t : Pattern) (p : PatternId) : Option Label := t.labels[p.toNat]?

/-- The vertices in ascending order. -/
def vertices (t : Pattern) : List PatternId := idsBelow t.vertexCount

/-- The edges, sorted by source. -/
def edges (t : Pattern) : List (PatternId × PatternId) :=
  t.vertices.flatMap fun p => (t.neighborsOf p).map fun q => (p, q)

end Pattern

end VertexSweep
