import VertexSweep.Relax.Basic

/-! Components by spreading the least id. Every vertex starts with its own id and adopts the least
number that it reads on its edges. Undirected, numbers travel both ways along an edge, and the
vertices of a weakly connected component end with the same number; directed, they travel along
the edges only, and every vertex ends with the least id from which it is reached. -/

namespace VertexSweep.Components

/-- Which way numbers travel. -/
inductive Direction where
  | undirected
  | directed
deriving DecidableEq, Repr, Inhabited

/-- Labels the vertex and its out-edges with its own id. -/
def start (view : View UInt32 UInt32) : Update Unit UInt32 UInt32 :=
  { state := ()
    view := (view.setValue view.id).writeAll view.outLinks view.id
    requests := #[.add view.id false]
    verdict := .ok .quiet }

/-- The links on which a vertex reads. -/
def sources (direction : Direction) (view : View UInt32 UInt32) : Array Link :=
  match direction with
  | .undirected => view.links
  | .directed => view.inLinks

/-- The links on which a vertex writes. -/
def targets (direction : Direction) (view : View UInt32 UInt32) : Array Link :=
  match direction with
  | .undirected => view.links
  | .directed => view.outLinks

/-- Adopts the least number around and lowers the edges that hold more. -/
def spread (direction : Direction) (view : View UInt32 UInt32) : Update Unit UInt32 UInt32 :=
  let least := leastOf view.value ((sources direction view).toList.map view.read)
  let improved := least < view.value
  let view := if improved then view.setValue least else view
  let (view, requests) := view.lower (targets direction view) least
  { state := (), view, requests, verdict := .ok (.ofChanged (improved || !requests.isEmpty)) }

def program (direction : Direction) : Relaxation where
  update ctx _ view := if ctx.iteration = 0 then start view else spread direction view

/-- Labels the components of the graph of an edge list. -/
def solve (l : EdgeList) (direction : Direction) (settings : Settings) : Except Fault Relaxed :=
  (program direction).solve l settings

end VertexSweep.Components
