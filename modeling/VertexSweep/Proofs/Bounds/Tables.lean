import VertexSweep.Proofs.Bounds.PackedRows
import VertexSweep.Proofs.Bounds.Views
import VertexSweep.Proofs.Match.Pattern
import VertexSweep.Proofs.Match.Storage

/-!
# Tables and patterns with every access tested

The operations of a candidate table, with every index into the slots, and every slot of the pool,
looked for before it is used. A look-up of a vertex also tests that indicator and slots agree, and a
new slot that its number is a word. On a well-formed table, whatever its dimensions are, no test
fails, and each operation does what it does without the tests (`Candidates.add?_eq`,
`Candidates.prune?_eq`). The same is shown of the neighbors in a built pattern, which its offsets
cut out of the targets.
-/

namespace VertexSweep

/-! ## Pools -/

namespace SetPool

def get? (pool : SetPool) (slot : Nat) : Option IdSet := pool.sets[slot]?

def modify? (pool : SetPool) (slot : Nat) (f : IdSet → IdSet) : Option SetPool :=
  if slot < pool.sets.size then some (pool.modify slot f) else none

def release? (pool : SetPool) (slot : Nat) : Option SetPool :=
  if slot < pool.sets.size then some (pool.release slot) else none

/-- Hands out a slot. The number of a new one has to be a word. -/
def alloc? (pool : SetPool) : Option (Nat × SetPool) :=
  if pool.free = [] ∧ maxWord < pool.sets.size then none else some pool.alloc

variable {pool : SetPool} {i : Nat} {f : IdSet → IdSet}

theorem IsOwned.get?_eq (h : pool.IsOwned i) : pool.get? i = some (pool.get i) := by
  simp [get?, get, h.1]

theorem IsOwned.modify?_eq (h : pool.IsOwned i) : pool.modify? i f = some (pool.modify i f) :=
  if_pos h.1

theorem IsOwned.release?_eq (h : pool.IsOwned i) : pool.release? i = some (pool.release i) :=
  if_pos h.1

end SetPool

/-! ## Candidate tables -/

namespace Candidates

/-- The slot of `u`, if the indicator agrees with the slots on whether it has one. -/
def lookup? (t : Candidates) (u : VertexId) : Option (Option Nat) :=
  if (t.slot? u).isSome = t.isLive u then some (t.slot? u) else none

def setOf? (t : Candidates) (u : VertexId) : Option IdSet := do
  match ← t.lookup? u with
  | some slot => t.pool.get? slot
  | none => return .empty

def contains? (t : Candidates) (u : VertexId) (p : PatternId) : Option Bool := do
  return (← t.setOf? u).contains p.toNat

def count? (t : Candidates) (u : VertexId) : Option Nat := do
  return (← t.setOf? u).size

def candidatesOf? (t : Candidates) (u : VertexId) : Option (List PatternId) := do
  return (← t.setOf? u).toList.map UInt32.ofNat

def total? (t : Candidates) : Option Nat :=
  t.liveVertices.foldlM (fun n u => do return n + (← t.count? u)) 0

/-- The slot of `u`, which is handed out if there is none. -/
def slotFor? (t : Candidates) (u : VertexId) : Option (Nat × Candidates) := do
  match ← t.slots[u.toNat]? with
  | some slot => return (slot, t)
  | none =>
    let (slot, pool) ← t.pool.alloc?
    return (slot, { t with
      indicator := t.indicator.insert u.toNat
      slots := t.slots.setIfInBounds u.toNat (some slot)
      pool })

/-- Adds `p` to the set in the slot of `u`. -/
def add? (t : Candidates) (u : VertexId) (p : PatternId) :
    Option (Except Fault Bool × Candidates) :=
  match t.addDefect? u p with
  | some fault => some (.error fault, t)
  | none => do
    let (slot, t) ← t.slotFor? u
    let set ← t.pool.get? slot
    let pool ← t.pool.modify? slot (·.insert p.toNat)
    return (.ok !set.contains p.toNat, { t with pool })

/-- Takes its slot from `u`. -/
def releaseFrom? (t : Candidates) (u : VertexId) (slot : Nat) : Option Candidates := do
  let _ ← t.slots[u.toNat]?
  return { t with
    indicator := t.indicator.erase u.toNat
    slots := t.slots.setIfInBounds u.toNat none
    pool := ← t.pool.release? slot }

/-- Removes `p` from the set in the slot of `u`, and takes an empty set back. -/
def prune? (t : Candidates) (u : VertexId) (p : PatternId) :
    Option (Except Fault Bool × Candidates) :=
  if t.width ≤ p.toNat then
    some (.error (.patternOutOfRange p t.width), t)
  else do
    match ← t.lookup? u with
    | none => return (.error (.misuse u .prunedWithoutCandidates), t)
    | some slot =>
      let set ← t.pool.get? slot
      let pool ← t.pool.modify? slot (·.erase p.toNat)
      let t := { t with pool }
      if (← pool.get? slot).isEmpty then
        return (.ok (set.contains p.toNat), ← t.releaseFrom? u slot)
      else
        return (.ok (set.contains p.toNat), t)

variable {t : Candidates} {u : VertexId} {p : PatternId} {i : Nat}

theorem lookup?_eq (h : t.WF) : t.lookup? u = some (t.slot? u) := by
  refine if_pos ?_
  rw [Bool.eq_iff_iff, Option.isSome_iff_exists, isLive, h.indicator]
  exact exists_congr fun i => slot?_eq_some_iff

theorem setOf?_eq (h : t.WF) : t.setOf? u = some (t.setOf u) := by
  simp only [setOf?, setOf, lookup?_eq h, Option.bind_eq_bind, Option.bind_some]
  cases hslot : t.slot? u with
  | none => rfl
  | some i => exact (h.isOwned (slot?_eq_some_iff.1 hslot)).get?_eq

theorem contains?_eq (h : t.WF) : t.contains? u p = some (t.contains u p) := by
  rw [contains?, setOf?_eq h]
  rfl

theorem count?_eq (h : t.WF) : t.count? u = some (t.count u) := by
  rw [count?, setOf?_eq h]
  rfl

theorem candidatesOf?_eq (h : t.WF) : t.candidatesOf? u = some (t.candidatesOf u) := by
  rw [candidatesOf?, setOf?_eq h]
  rfl

theorem total?_eq (h : t.WF) : t.total? = some t.total := by
  refine foldlM_eq_some (I := fun _ => True) (fun u _ n _ => ⟨?_, trivial⟩) trivial
  rw [count?_eq h]
  rfl

/-- A vertex that has no slot can be given one. -/
theorem alloc?_eq (h : t.WF) (hu : u.toNat < t.capacity) (hnone : ∀ i, ¬ t.Holds u.toNat i) :
    t.pool.alloc? = some t.pool.alloc := by
  refine if_neg fun ⟨hfree, hlarge⟩ => ?_
  -- A pool with no free slot has only those that vertices hold, and `u` holds none.
  have hroom := h.size_pool_lt hfree hu hnone
  unfold maxWord at hlarge
  omega

/-- **An addition misses nothing.** -/
theorem add?_eq (h : t.WF) : t.add? u p = some (t.add u p) := by
  unfold add? add
  cases hdefect : t.addDefect? u p with
  | some fault => rfl
  | none =>
    have hu := (addDefect?_eq_none_iff.1 hdefect).1
    obtain ⟨indicator, slots, pool, width, isSealed⟩ := t
    have hentry : slots[u.toNat]? = some slots[u.toNat] := Array.getElem?_eq_getElem hu
    cases hslot : slots[u.toNat] with
    | some i =>
      rw [hslot] at hentry
      have howned : pool.IsOwned i := h.isOwned (k := u.toNat) hentry
      simp only [slotFor?, hentry, howned.get?_eq, howned.modify?_eq, Option.bind_eq_bind,
        Option.bind_some, Option.pure_def, Option.join_some]
    | none =>
      rw [hslot] at hentry
      have hnone : ∀ i, ¬ Holds ⟨indicator, slots, pool, width, isSealed⟩ u.toNat i := by
        intro i hi
        cases hentry.symm.trans hi
      have howned : pool.alloc.2.IsOwned pool.alloc.1 :=
        (SetPool.isOwned_alloc h.pool).2 (.inr rfl)
      simp only [slotFor?, hentry, alloc?_eq h hu hnone, howned.get?_eq, howned.modify?_eq,
        Option.bind_eq_bind, Option.bind_some, Option.pure_def, SetPool.get_alloc,
        SetPool.get_alloc_fst h.pool]
      rfl

/-- **A removal misses nothing.** -/
theorem prune?_eq (h : t.WF) : t.prune? u p = some (t.prune u p) := by
  unfold prune? prune
  by_cases hp : t.width ≤ p.toNat
  · rw [if_pos hp, if_pos hp]
  rw [if_neg hp, if_neg hp, lookup?_eq h]
  cases hslot : t.slot? u with
  | none => rfl
  | some i =>
    have hi := slot?_eq_some_iff.1 hslot
    obtain ⟨indicator, slots, pool, width, isSealed⟩ := t
    have hentry : slots[u.toNat]? = some (some i) := hi
    have howned : pool.IsOwned i := h.isOwned hi
    have hmodified : (pool.modify i (·.erase p.toNat)).IsOwned i := SetPool.isOwned_modify.2 howned
    simp only [howned.get?_eq, howned.modify?_eq, hmodified.get?_eq, releaseFrom?, hentry,
      hmodified.release?_eq, Option.bind_eq_bind, Option.bind_some, Option.pure_def]
    split <;> rfl

end Candidates

/-! ## Patterns -/

namespace Pattern

/-- The out-neighbors of `p`, if its offsets cut a piece out of the targets. -/
def neighborsOf? (t : Pattern) (p : PatternId) : Option (List PatternId) :=
  if t.vertexCount ≤ p.toNat then some []
  else do
    return (← PackedRows.row? ⟨t.offsets.map (·.toNat), t.targets⟩ p.toNat).toList

theorem neighborsOf?_eq {n : Nat} {edges : Array (PatternId × PatternId)} {labels : Array Label}
    {t : Pattern} (h : build n edges labels = .ok t) (hsize : edges.size ≤ maxWord)
    (p : PatternId) : t.neighborsOf? p = some (t.neighborsOf p) := by
  unfold neighborsOf? neighborsOf
  split
  · rfl
  · rename_i hp
    rw [vertexCount_build h, Nat.not_le] at hp
    obtain ⟨first, last, hfirst, hlast, -, hcut⟩ := exists_cut (row?_build h hsize hp)
    rw [row?_build h hsize hp, Array.getD_eq_getD_getElem?, Array.getD_eq_getD_getElem?, hfirst,
      hlast, ← hcut]
    rfl

end Pattern

end VertexSweep
