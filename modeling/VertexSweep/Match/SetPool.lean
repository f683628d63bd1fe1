import VertexSweep.IdSet.Basic

/-! A pool of sets that hands out its slots one at a time and takes them back. A slot that comes
back is emptied and handed out again before a new one is made, the latest first. -/

namespace VertexSweep

/-- Sets in numbered slots, some of which are free. -/
structure SetPool where
  sets : Array IdSet := #[]
  /-- The free slots, in the order in which they will be handed out. -/
  free : List Nat := []
deriving DecidableEq, Repr, Inhabited

namespace SetPool

/-- Hands out a slot, which holds the empty set. -/
def alloc (pool : SetPool) : Nat × SetPool :=
  match pool with
  | ⟨sets, slot :: free⟩ => (slot, ⟨sets, free⟩)
  | ⟨sets, []⟩ => (sets.size, ⟨sets.push .empty, []⟩)

def release (pool : SetPool) (slot : Nat) : SetPool :=
  match pool with
  | ⟨sets, free⟩ => ⟨sets.setIfInBounds slot .empty, slot :: free⟩

def get (pool : SetPool) (slot : Nat) : IdSet := pool.sets.getD slot .empty

def modify (pool : SetPool) (slot : Nat) (f : IdSet → IdSet) : SetPool :=
  match pool with
  | ⟨sets, free⟩ => ⟨sets.modify slot f, free⟩

/-- How many slots are handed out. -/
def live (pool : SetPool) : Nat := pool.sets.size - pool.free.length

end SetPool

end VertexSweep
