import VertexSweep.Id

/-! Directed edge lists, the input from which data graphs are built. The vertex count follows from
the edges, unless more vertices are reserved explicitly. -/

namespace VertexSweep

/-- Directed edges in insertion order, with the number of vertices that they call for. -/
structure EdgeList where
  /-- The greatest vertex count that was reserved explicitly. -/
  reserved : Nat := 0
  /-- The larger of the reserved count and the greatest endpoint plus one. -/
  vertexCount : Nat := 0
  edges : Array (VertexId × VertexId) := #[]
deriving DecidableEq, Repr, Inhabited

namespace EdgeList

def empty : EdgeList := {}

/-- The list without edges that reserves the ids below `n`. -/
def ofVertexCount (n : Nat) : EdgeList := { reserved := n, vertexCount := n }

/-- Appends the edge `source → target`. -/
def push (l : EdgeList) (source target : VertexId) : EdgeList :=
  { l with
    vertexCount := max (max l.vertexCount (source.toNat + 1)) (target.toNat + 1)
    edges := l.edges.push (source, target) }

/-- Appends the edge `source → target` the given number of times. -/
def pushTimes (l : EdgeList) (source target : VertexId) : Nat → EdgeList
  | 0 => l
  | times + 1 => (l.push source target).pushTimes source target times

/-- Raises the vertex count to at least `n`. -/
def reserve (l : EdgeList) (n : Nat) : EdgeList :=
  { l with reserved := max l.reserved n, vertexCount := max l.vertexCount n }

def ofList (edges : List (VertexId × VertexId)) : EdgeList :=
  edges.foldl (fun l e => l.push e.1 e.2) empty

/-- How many edges there are. -/
def size (l : EdgeList) : Nat := l.edges.size

/-- Whether there are no edges. -/
def isEmpty (l : EdgeList) : Bool := l.edges.isEmpty

end EdgeList

end VertexSweep
