import VertexSweep.Fault
import VertexSweep.Match.SetPool

/-! The candidate table: for every data vertex the pattern vertices that it may still match. An
indicator tells which vertices have any; only those have a set, in a slot of a pool that is given
back in the step that removes the last candidate. Candidates can be added until the table is
sealed, and removed at any time. -/

namespace VertexSweep

/-- Candidate sets of the data vertices below `slots.size`. -/
structure Candidates where
  indicator : IdSet := .empty
  /-- The slot of the candidate set of each vertex that has one. -/
  slots : Array (Option Nat)
  pool : SetPool := {}
  /-- The number of pattern vertices; every candidate is below it. -/
  width : Nat
  /-- Whether candidates can no longer be added. -/
  isSealed : Bool := false
deriving DecidableEq, Repr, Inhabited

namespace Candidates

/-- The empty table for `capacity` data vertices and a pattern of `width` vertices. -/
def ofCapacity (capacity width : Nat) : Candidates :=
  { slots := Array.replicate capacity none, width }

/-- The empty table, unless it would have too many entries to be addressed. -/
def ofCapacity? (capacity width : Nat) : Except Fault Candidates :=
  if addressLimit ≤ capacity then .error (.unaddressable capacity)
  else .ok (ofCapacity capacity width)

/-- The number of data vertices that the table can hold. -/
def capacity (t : Candidates) : Nat := t.slots.size

/-- The slot of `u`. -/
def slot? (t : Candidates) (u : VertexId) : Option Nat := t.slots[u.toNat]?.join

/-- The candidates of `u`, as a set. -/
def setOf (t : Candidates) (u : VertexId) : IdSet :=
  match t.slot? u with
  | some slot => t.pool.get slot
  | none => .empty

/-- Whether `u` has any candidate. -/
def isLive (t : Candidates) (u : VertexId) : Bool := t.indicator.contains u.toNat

/-- Whether `p` is a candidate of `u`. -/
def contains (t : Candidates) (u : VertexId) (p : PatternId) : Bool :=
  (t.setOf u).contains p.toNat

/-- How many candidates `u` has. -/
def count (t : Candidates) (u : VertexId) : Nat := (t.setOf u).size

/-- The candidates of `u` in ascending order. -/
def candidatesOf (t : Candidates) (u : VertexId) : List PatternId :=
  (t.setOf u).toList.map UInt32.ofNat

/-- The candidates of a vertex that must have some. -/
def requireCandidates (t : Candidates) (u : VertexId) : Except Fault (List PatternId) :=
  match t.slot? u with
  | some _ => .ok (t.candidatesOf u)
  | none => .error (.misuse u .readWithoutCandidates)

/-- What forbids adding `p` to the candidates of `u`, if anything does. -/
def addDefect? (t : Candidates) (u : VertexId) (p : PatternId) : Option Fault :=
  if t.capacity ≤ u.toNat then some (.misuse u .outsideTable)
  else if t.width ≤ p.toNat then some (.patternOutOfRange p t.width)
  else if t.isSealed then some (.misuse u .seededAfterSeal)
  else none

/-- Adds `p` to the candidates of `u`, and says whether it was new. Fails, and changes nothing, if
either lies outside the table or the table is sealed. -/
def add (t : Candidates) (u : VertexId) (p : PatternId) : Except Fault Bool × Candidates :=
  match t.addDefect? u p with
  | some fault => (.error fault, t)
  | none =>
    match t with
    | ⟨indicator, slots, pool, width, isSealed⟩ =>
      match slots[u.toNat]?.join with
      | some slot =>
        let isNew := !(pool.get slot).contains p.toNat
        (.ok isNew, ⟨indicator, slots, pool.modify slot (·.insert p.toNat), width, isSealed⟩)
      | none =>
        let (slot, pool) := pool.alloc
        (.ok true, ⟨indicator.insert u.toNat, slots.setIfInBounds u.toNat (some slot),
          pool.modify slot (·.insert p.toNat), width, isSealed⟩)

/-- Removes `p` from the candidates of `u`, and says whether it was there; the last one to go
takes the set with it. Fails, and changes nothing, if `p` lies outside the table or `u` has no
candidates. -/
def prune (t : Candidates) (u : VertexId) (p : PatternId) : Except Fault Bool × Candidates :=
  if t.width ≤ p.toNat then
    (.error (.patternOutOfRange p t.width), t)
  else
    match t.slot? u with
    | none => (.error (.misuse u .prunedWithoutCandidates), t)
    | some slot =>
      match t with
      | ⟨indicator, slots, pool, width, isSealed⟩ =>
        let wasThere := (pool.get slot).contains p.toNat
        let pool := pool.modify slot (·.erase p.toNat)
        if (pool.get slot).isEmpty then
          (.ok wasThere, ⟨indicator.erase u.toNat, slots.setIfInBounds u.toNat none,
            pool.release slot, width, isSealed⟩)
        else
          (.ok wasThere, ⟨indicator, slots, pool, width, isSealed⟩)

/-- Forbids any further additions. -/
def sealed (t : Candidates) : Candidates := { t with isSealed := true }

/-- The vertices that have candidates, in ascending order. -/
def liveVertices (t : Candidates) : List VertexId := t.indicator.toList.map UInt32.ofNat

/-- How many vertices have candidates. -/
def liveCount (t : Candidates) : Nat := t.indicator.size

/-- How many pairs of a vertex and one of its candidates there are. -/
def total (t : Candidates) : Nat := t.liveVertices.foldl (fun n u => n + t.count u) 0

/-- How many sets are in use. -/
def allocated (t : Candidates) : Nat := t.pool.live

/-- Every vertex that has candidates, in ascending order, with its candidates. -/
def liveSets (t : Candidates) : List (VertexId × List PatternId) :=
  t.liveVertices.map fun u => (u, t.candidatesOf u)

/-- The vertices of which `p` is a candidate, in ascending order. -/
def matchesOf (t : Candidates) (p : PatternId) : List VertexId :=
  t.liveVertices.filter (t.contains · p)

end Candidates

end VertexSweep
