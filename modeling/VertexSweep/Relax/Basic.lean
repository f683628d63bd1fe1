import VertexSweep.Sweep.Run

/-! Relaxations: programs without a state of their own that settle one number at every vertex by
passing numbers along the edges. -/

namespace VertexSweep

/-- The largest word; as a distance it means that a vertex is not reached. -/
def unreached : UInt32 := 4294967295

/-- A relaxation: vertices and edges carry words, and there is nothing else to remember. -/
abbrev Relaxation := VertexProgram Unit UInt32 UInt32

/-- What a relaxation settled. -/
structure Relaxed where
  report : Report
  values : Array UInt32
deriving DecidableEq, Repr, Inhabited

/-- Carries out a relaxation on the graph of an edge list. -/
def Relaxation.solve (program : Relaxation) (l : EdgeList) (settings : Settings) :
    Except Fault Relaxed := do
  let finished ← VertexProgram.runOn program settings () l
  return ⟨finished.report, finished.graph.values⟩

/-- Writes `offer` into each of the slots that holds more, and requests an urgent visit of the
vertex at the other end of every such edge. -/
def View.lower (view : View UInt32 UInt32) (links : Array Link) (offer : UInt32) :
    View UInt32 UInt32 × Array Request :=
  links.foldl
    (fun (view, requests) l =>
      if offer < view.read l then (view.write l offer, requests.push (.add l.far true))
      else (view, requests))
    (view, #[])

/-- The least of `start` and the given numbers. -/
def leastOf (start : UInt32) (xs : List UInt32) : UInt32 :=
  xs.foldl (fun a b => if b < a then b else a) start

end VertexSweep
