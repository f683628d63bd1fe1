import VertexSweep.Graph.DataGraph

/-! What an update sees of the graph: its own vertex and the slots of the incident edges. A slot
is shared by both endpoints of its edge, so what one endpoint writes the other reads. Incident
edges are numbered with the in-edges first; a self-loop appears in both parts, on one slot. -/

namespace VertexSweep

/-- One incident edge as it is read: the vertex at the other end and the value in the slot. -/
structure Edge (E : Type) where
  far : VertexId
  value : E
deriving DecidableEq, Repr

/-- The vertex `id` of a graph, opened for one update. -/
structure View (V E : Type) where
  id : VertexId
  value : V
  adjacency : Adjacency
  /-- The values of all edge slots of the graph. -/
  slots : Array E

namespace View

variable {V E : Type}

def inLinks (v : View V E) : Array Link := v.adjacency.inOf v.id

def outLinks (v : View V E) : Array Link := v.adjacency.outOf v.id

/-- All incident edges, in-edges first. -/
def links (v : View V E) : Array Link := v.inLinks ++ v.outLinks

/-- The value in the slot of a link. -/
def read [Inhabited E] (v : View V E) (l : Link) : E := v.slots.getD l.slot default

def write (v : View V E) (l : Link) (x : E) : View V E :=
  match v with
  | ⟨id, value, adjacency, slots⟩ => ⟨id, value, adjacency, slots.setIfInBounds l.slot x⟩

/-- Writes `x` into the slots of all the given links. -/
def writeAll (v : View V E) (links : Array Link) (x : E) : View V E :=
  links.foldl (fun v l => v.write l x) v

def setValue (v : View V E) (x : V) : View V E :=
  match v with
  | ⟨id, _, adjacency, slots⟩ => ⟨id, x, adjacency, slots⟩

/-- A link together with the value in its slot. -/
def edgeOf [Inhabited E] (v : View V E) (l : Link) : Edge E := ⟨l.far, v.read l⟩

def inEdges [Inhabited E] (v : View V E) : List (Edge E) := v.inLinks.toList.map v.edgeOf

def outEdges [Inhabited E] (v : View V E) : List (Edge E) := v.outLinks.toList.map v.edgeOf

/-- All incident edges as they read now, in-edges first. -/
def edges [Inhabited E] (v : View V E) : List (Edge E) := v.links.toList.map v.edgeOf

/-- The far endpoints of all incident edges, in-edges first, one for every edge. -/
def neighbors (v : View V E) : List VertexId := v.links.toList.map (·.far)

/-- The in-edge number `i`. -/
def inEdge? [Inhabited E] (v : View V E) (i : Nat) : Option (Edge E) := v.inLinks[i]?.map v.edgeOf

/-- The out-edge number `i`. -/
def outEdge? [Inhabited E] (v : View V E) (i : Nat) : Option (Edge E) := v.outLinks[i]?.map v.edgeOf

/-- The incident edge number `i`, in-edges first. -/
def edge? [Inhabited E] (v : View V E) (i : Nat) : Option (Edge E) := v.links[i]?.map v.edgeOf

/-- Writes the in-edge number `i`, if there is one. -/
def setInEdge? (v : View V E) (i : Nat) (x : E) : Option (View V E) :=
  v.inLinks[i]?.map (v.write · x)

/-- Writes the out-edge number `i`, if there is one. -/
def setOutEdge? (v : View V E) (i : Nat) (x : E) : Option (View V E) :=
  v.outLinks[i]?.map (v.write · x)

/-- Writes the incident edge number `i`, in-edges first, if there is one. -/
def setEdge? (v : View V E) (i : Nat) (x : E) : Option (View V E) :=
  v.links[i]?.map (v.write · x)

/-- Writes `x` onto every incident edge. -/
def broadcast (v : View V E) (x : E) : View V E := v.writeAll v.links x

end View

end VertexSweep
