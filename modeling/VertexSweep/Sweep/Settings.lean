/-! How a run is carried out. -/

namespace VertexSweep

/-- The iteration ceiling, the activation mode and the window size of a run. -/
structure Settings where
  /-- The greatest number of iterations, iteration 0 included. -/
  maxIterations : UInt32 := 1000
  /-- After iteration 0, visit only the vertices with a task, instead of every vertex. -/
  selective : Bool := false
  /-- The number of vertices in a window; zero puts the whole graph into one window. -/
  intervalSize : Nat := 65536
deriving DecidableEq, Repr, Inhabited

end VertexSweep
