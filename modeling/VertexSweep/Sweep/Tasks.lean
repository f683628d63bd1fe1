import VertexSweep.Id
import VertexSweep.IdSet.Basic

/-! Tasks: which vertices are due in the current sweep, and which are requested for the next one.
A request always counts for the next sweep; an urgent request also makes its vertex due in the
current sweep, which still reaches it if it has not passed it yet. -/

namespace VertexSweep

/-- A wish that an update utters about the schedule. -/
inductive Request where
  /-- Visit the vertex in the next sweep, and if urgent in the current one too. -/
  | add (vertex : VertexId) (urgent : Bool)
  /-- Forget what is due in the current sweep from `first` to `last`, both included. -/
  | remove (first last : VertexId)
deriving DecidableEq, Repr

/-- The schedule of a graph with `bound` vertices. -/
structure Tasks where
  /-- Requests for vertices at or beyond this are ignored. -/
  bound : Nat
  /-- The vertices due in the current sweep. -/
  current : IdSet := .empty
  /-- The vertices requested for the next sweep. -/
  next : IdSet := .empty
deriving DecidableEq, Repr, Inhabited

namespace Tasks

/-- The schedule without tasks for `n` vertices; ids are 32-bit words, and the largest of them is
never scheduled. -/
def ofVertexCount (n : Nat) : Tasks := { bound := min n maxWord }

/-- Requests a visit of `v` in the next sweep, and if urgent in the current one too. -/
def add (t : Tasks) (v : VertexId) (urgent : Bool) : Tasks :=
  match t with
  | ⟨bound, current, next⟩ =>
    if bound ≤ v.toNat then ⟨bound, current, next⟩
    else ⟨bound, if urgent then current.insert v.toNat else current, next.insert v.toNat⟩

/-- Forgets what is due in the current sweep from `first` to `last`, both included. -/
def remove (t : Tasks) (first last : VertexId) : Tasks :=
  { t with current := t.current.removeRange first.toNat (last.toNat + 1) }

def grant (t : Tasks) : Request → Tasks
  | .add v urgent => t.add v urgent
  | .remove first last => t.remove first last

/-- Makes every vertex due in the current sweep. -/
def addAll (t : Tasks) : Tasks := { t with current := t.current.insertRange 0 t.bound }

/-- Whether `v` is due in the current sweep. -/
def isDue (t : Tasks) (v : VertexId) : Bool := t.current.contains v.toNat

/-- Takes `v` off the current sweep, and says whether it was due. -/
def take (t : Tasks) (v : VertexId) : Bool × Tasks :=
  match t with
  | ⟨bound, current, next⟩ =>
    if current.contains v.toNat then (true, ⟨bound, current.erase v.toNat, next⟩)
    else (false, ⟨bound, current, next⟩)

/-- How many vertices are requested for the next sweep. -/
def pending (t : Tasks) : Nat := t.next.size

/-- Whether any vertex is due in the current sweep. -/
def isActive (t : Tasks) : Bool := !t.current.isEmpty

/-- Begins the next sweep: what was requested becomes due, and what was left over is dropped. -/
def advance (t : Tasks) : Tasks := { t with current := t.next, next := .empty }

end Tasks

end VertexSweep
