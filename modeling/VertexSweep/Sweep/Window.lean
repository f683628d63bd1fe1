import VertexSweep.Id

/-! Windows: the runs of consecutive vertices into which a sweep over a graph is cut. -/

namespace VertexSweep

/-- The vertices from `first` to `last`, both included. -/
structure Window where
  first : VertexId
  last : VertexId
deriving DecidableEq, Repr, Inhabited

namespace Window

/-- The vertices of the window in ascending order. -/
def vertices (w : Window) : List VertexId :=
  (List.range' w.first.toNat (w.last.toNat + 1 - w.first.toNat)).map UInt32.ofNat

/-- The window that starts at `start` and has `size` vertices, or as many as are left of `n`. -/
def startingAt (n size start : Nat) : Window :=
  ⟨UInt32.ofNat start, UInt32.ofNat (min (start + size) n - 1)⟩

end Window

/-- Cuts the vertices below `n` into windows of `size` vertices, the last of which may be shorter;
size zero makes one window of them all. -/
def windows (n size : Nat) : List Window :=
  let size := if size = 0 then n else size
  (List.range ((n + size - 1) / size)).map fun k => Window.startingAt n size (k * size)

end VertexSweep
