import VertexSweep.Fault
import VertexSweep.Graph.EdgeList

/-! The fixed shape of a data graph. Every edge has one slot, numbered in insertion order, and is
linked from both of its endpoints: from its source as an out-link, from its target as an in-link.
The links of a vertex keep the insertion order of the edges, because `rowsByKey` keeps the order
of the items that share a key (`getElem?_rowsByKey`). -/

namespace VertexSweep

/-- Sorts keyed items into `n` rows, keeping their order within a row; a key of `n` or more has no
row, and its item is dropped. -/
def rowsByKey {α : Type} (n : Nat) (items : Array (UInt32 × α)) : Array (Array α) :=
  items.foldl (fun rows item => rows.modify item.1.toNat (·.push item.2)) (Array.replicate n #[])

theorem size_rowsByKey {α : Type} {n : Nat} {items : Array (UInt32 × α)} :
    (rowsByKey n items).size = n := by
  rw [rowsByKey, ← Array.foldl_toList]
  have size_foldl : ∀ (items : List (UInt32 × α)) (rows : Array (Array α)),
      (items.foldl (fun rows item => rows.modify item.1.toNat (·.push item.2)) rows).size =
        rows.size := by
    intro items
    induction items with
    | nil => exact fun _ => rfl
    | cons item items ih => exact fun rows => (ih _).trans (Array.size_modify)
  rw [size_foldl, Array.size_replicate]

/-- The row of a key holds the items with that key, in their order. -/
theorem getElem?_rowsByKey {α : Type} {n k : Nat} {items : Array (UInt32 × α)} (hk : k < n) :
    (rowsByKey n items)[k]? = some ((items.filter (·.1.toNat == k)).map (·.2)) := by
  rw [rowsByKey, ← Array.foldl_toList]
  have getElem?_foldl : ∀ (items : List (UInt32 × α)) (rows : Array (Array α)),
      (items.foldl (fun rows item => rows.modify item.1.toNat (·.push item.2)) rows)[k]? =
        rows[k]?.map (· ++ ((items.filter (·.1.toNat == k)).map (·.2)).toArray) := by
    intro items
    induction items with
    | nil => simp
    | cons item items ih =>
      intro rows
      rw [List.foldl_cons, ih, Array.getElem?_modify]
      by_cases same : item.1.toNat = k
      · cases rows[k]? <;> simp [same]
      · simp [same]
  rw [getElem?_foldl, Array.getElem?_replicate, if_pos hk]
  exact congrArg some (Array.ext' (by simp))

/-- One end of an edge: its slot, and the vertex at the other end. -/
structure Link where
  slot : Nat
  far : VertexId
deriving DecidableEq, Repr, Inhabited

/-- The edges of a data graph with `outLinks.size` vertices. -/
structure Adjacency where
  /-- Source and target of the edge in each slot. -/
  ends : Array (VertexId × VertexId)
  outLinks : Array (Array Link)
  inLinks : Array (Array Link)
deriving DecidableEq, Repr, Inhabited

namespace Adjacency

/-- Vertex counts up to this are accepted whatever the edge count. -/
def freeVertices : Nat := 1048576

/-- Beyond `freeVertices`, ids on edges may imply this many vertices for every edge. -/
def verticesPerEdge : Nat := 64

/-- The vertex count that `edges` many edges may imply without a reservation. -/
def allowance (edges : Nat) : Nat := max (edges * verticesPerEdge) freeVertices

/-- The links of an accepted edge list. -/
def ofEdges (n : Nat) (edges : Array (VertexId × VertexId)) : Adjacency where
  ends := edges
  outLinks := rowsByKey n (edges.mapIdx fun slot e => (e.1, ⟨slot, e.2⟩))
  inLinks := rowsByKey n (edges.mapIdx fun slot e => (e.2, ⟨slot, e.1⟩))

/-- The data graph of an edge list, unless there are too many edges for 32-bit slots, a stray id
implies far more vertices than were reserved, or more were reserved than can be addressed. -/
def ofEdgeList (l : EdgeList) : Except Fault Adjacency :=
  if maxWord < l.size then
    .error (.graph (.tooManyEdges l.size))
  else if allowance l.size < l.vertexCount ∧ l.reserved < l.vertexCount then
    .error (.graph (.strayVertex l.vertexCount l.size))
  else if addressLimit ≤ l.vertexCount then
    .error (.unaddressable l.vertexCount)
  else
    .ok (ofEdges l.vertexCount l.edges)

/-- How many vertices there are. -/
def vertexCount (g : Adjacency) : Nat := g.outLinks.size

/-- How many edges there are. -/
def edgeCount (g : Adjacency) : Nat := g.ends.size

/-- The out-links of `v`, none if `v` is no vertex of the graph. -/
def outOf (g : Adjacency) (v : VertexId) : Array Link := g.outLinks.getD v.toNat #[]

/-- The in-links of `v`, none if `v` is no vertex of the graph. -/
def inOf (g : Adjacency) (v : VertexId) : Array Link := g.inLinks.getD v.toNat #[]

/-- The targets of the edges from `v`, one for every edge. -/
def outNeighbors (g : Adjacency) (v : VertexId) : List VertexId :=
  (g.outOf v).toList.map (·.far)

/-- The sources of the edges to `v`, one for every edge. -/
def inNeighbors (g : Adjacency) (v : VertexId) : List VertexId :=
  (g.inOf v).toList.map (·.far)

/-- Source and target of the edge in a slot. -/
def endpoints? (g : Adjacency) (slot : Nat) : Option (VertexId × VertexId) := g.ends[slot]?

end Adjacency

end VertexSweep
