import VertexSweep.Graph.Adjacency

/-! Data graphs: a fixed adjacency with one value for every vertex and one value in the slot of
every edge. -/

namespace VertexSweep

/-- A graph with vertex values of type `V` and edge values of type `E`. -/
structure DataGraph (V E : Type) where
  adjacency : Adjacency
  values : Array V
  slots : Array E
deriving Repr, Inhabited

namespace DataGraph

variable {V E : Type}

/-- The graph of an adjacency in which every value is the default. -/
def ofAdjacency [Inhabited V] [Inhabited E] (g : Adjacency) : DataGraph V E where
  adjacency := g
  values := Array.replicate g.vertexCount default
  slots := Array.replicate g.edgeCount default

/-- The graph of an edge list, with default values. -/
def ofEdgeList [Inhabited V] [Inhabited E] (l : EdgeList) : Except Fault (DataGraph V E) :=
  (Adjacency.ofEdgeList l).map ofAdjacency

/-- The value of vertex `v`. -/
def value? (g : DataGraph V E) (v : VertexId) : Option V := g.values[v.toNat]?

def slot? (g : DataGraph V E) (slot : Nat) : Option E := g.slots[slot]?

end DataGraph

end VertexSweep
