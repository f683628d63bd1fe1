import VertexSweep.Relax.Basic

/-! Greedy coloring. Every vertex takes the least color that none of its out-neighbors with a
higher id has, and publishes it on the in-edges from vertices with a lower id, which are the edges
that those vertices read. Colors settle from the highest id downwards, so they do not depend on
the order of visits. -/

namespace VertexSweep.Coloring

/-- The least color from `color` on that is missing in an ascending list. -/
def firstGap (color : UInt32) : List UInt32 → UInt32
  | [] => color
  | c :: cs =>
    if c < color then firstGap color cs
    else if c = color then firstGap (color + 1) cs
    else color

/-- The least color that is not used. -/
def firstFree (used : List UInt32) : UInt32 := firstGap 0 (used.mergeSort (· ≤ ·))

/-- The in-edges from vertices with a lower id. -/
def lowerLinks (view : View UInt32 UInt32) : Array Link :=
  view.inLinks.filter (·.far < view.id)

/-- Publishes a provisional color. -/
def start (view : View UInt32 UInt32) : Update Unit UInt32 UInt32 :=
  { state := ()
    view := (view.setValue 0).writeAll (lowerLinks view) 0
    requests := #[.add view.id false]
    verdict := .ok .quiet }

/-- Takes the least free color and, if that is a new one, publishes it. -/
def recolor (view : View UInt32 UInt32) : Update Unit UInt32 UInt32 :=
  let used := (view.outEdges.filter (view.id < ·.far)).map (·.value)
  let color := firstFree used
  if color = view.value then
    { state := (), view, verdict := .ok .quiet }
  else
    let links := lowerLinks view
    { state := ()
      view := (view.setValue color).writeAll links color
      requests := links.map (.add ·.far false)
      verdict := .ok .changed }

def program : Relaxation where
  update ctx _ view := if ctx.iteration = 0 then start view else recolor view

/-- Colors the graph of an edge list. -/
def solve (l : EdgeList) (settings : Settings) : Except Fault Relaxed := program.solve l settings

end VertexSweep.Coloring
