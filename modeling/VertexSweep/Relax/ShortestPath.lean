import VertexSweep.Relax.Basic

/-! Unweighted shortest paths from one source. The source has distance 1 and every hop adds 1; an
edge carries the distance that its source offers to its target. -/

namespace VertexSweep.ShortestPath

/-- One more than `d`, unless `d` is the largest word already. -/
def oneFurther (d : UInt32) : UInt32 := if d = unreached then unreached else d + 1

/-- Before anything is known: nothing is offered, and only the source has a distance. -/
def start (source : VertexId) (view : View UInt32 UInt32) : Update Unit UInt32 UInt32 :=
  let view := view.writeAll view.outLinks unreached
  if view.id = source then
    { state := ()
      view := view.setValue 1
      requests := #[.add source false]
      verdict := .ok .quiet }
  else
    { state := (), view := view.setValue unreached, verdict := .ok .quiet }

/-- Adopts the best offer and passes a better one on. -/
def relax (view : View UInt32 UInt32) : Update Unit UInt32 UInt32 :=
  let best := leastOf view.value (view.inEdges.map (·.value))
  let improved := best < view.value
  let view := if improved then view.setValue best else view
  if best = unreached then
    { state := (), view, verdict := .ok (.ofChanged improved) }
  else
    let (view, requests) := view.lower view.outLinks (oneFurther best)
    { state := (), view, requests, verdict := .ok (.ofChanged (improved || !requests.isEmpty)) }

/-- The program that computes distances from `source`. -/
def program (source : VertexId) : Relaxation where
  update ctx _ view := if ctx.iteration = 0 then start source view else relax view

/-- Distances from `source`; vertices that are not reached hold `unreached`. -/
def solve (l : EdgeList) (source : VertexId) (settings : Settings) : Except Fault Relaxed :=
  if l.vertexCount ≤ source.toNat then
    .error (.graph (.sourceOutside source l.vertexCount))
  else
    (program source).solve l settings

end VertexSweep.ShortestPath
