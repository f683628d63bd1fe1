import VertexSweep.IdSet.Lemmas
import VertexSweep.Match.SetPool

/-!
# Slots of a pool

A slot of a well-formed pool is either free or handed out (`SetPool.IsOwned`), and a free one holds
the empty set. Each operation is described by the slots that are handed out afterwards and by the
sets that can be read: handing out a slot changes no set (`get_alloc`), and taking one back empties
it (`get_release`).
-/

namespace VertexSweep.SetPool

variable {pool : SetPool} {i j : Nat} {f : IdSet → IdSet}

/-- Free slots exist, are listed once, and hold nothing. -/
structure WF (pool : SetPool) : Prop where
  free_lt : ∀ i ∈ pool.free, i < pool.sets.size
  nodup : pool.free.Nodup
  free_empty : ∀ i ∈ pool.free, ∀ x, (pool.get i).contains x = false

/-- Slot `i` is handed out. -/
def IsOwned (pool : SetPool) (i : Nat) : Prop := i < pool.sets.size ∧ i ∉ pool.free

theorem WF.empty : ({} : SetPool).WF := ⟨by simp, List.nodup_nil, by simp⟩

theorem not_isOwned_empty : ¬ ({} : SetPool).IsOwned i := by simp [IsOwned]

/-! ## Changing a set -/

theorem get_modify (hi : i < pool.sets.size) :
    (pool.modify i f).get j = if j = i then f (pool.get i) else pool.get j := by
  simp only [get, modify, Array.getD_eq_getD_getElem?, Array.getElem?_modify]
  by_cases hj : j = i
  · subst hj
    simp [Array.getElem?_eq_getElem hi]
  · simp [hj, Ne.symm hj]

@[simp]
theorem isOwned_modify : (pool.modify i f).IsOwned j ↔ pool.IsOwned j := by
  simp [IsOwned, modify]

theorem WF.modify (h : pool.WF) (hi : pool.IsOwned i) : (pool.modify i f).WF where
  free_lt j hj := by simpa [SetPool.modify] using h.free_lt j hj
  nodup := h.nodup
  free_empty j hj x := by
    have hne : j ≠ i := fun heq => hi.2 (heq ▸ hj)
    rw [get_modify hi.1, if_neg hne]
    exact h.free_empty j hj x

/-! ## Handing out a slot -/

/-- Handing out a slot changes no set: a new slot holds the empty set, as it did before. -/
@[simp]
theorem get_alloc : pool.alloc.2.get j = pool.get j := by
  obtain ⟨sets, _ | ⟨i, free⟩⟩ := pool
  · simp only [alloc, get, Array.getD_eq_getD_getElem?, Array.getElem?_push]
    split
    · rename_i hj
      rw [Array.getElem?_eq_none (by omega)]
      rfl
    · rfl
  · rfl

/-- A new slot is made only if none is free. -/
theorem size_alloc : pool.alloc.2.sets.size = pool.sets.size ∨
    (pool.free = [] ∧ pool.alloc.2.sets.size = pool.sets.size + 1) := by
  obtain ⟨sets, _ | ⟨i, free⟩⟩ := pool
  · exact .inr ⟨rfl, Array.size_push ..⟩
  · exact .inl rfl

/-- The slot that is handed out was not handed out before. -/
theorem not_isOwned_alloc : ¬ pool.IsOwned pool.alloc.1 := by
  obtain ⟨sets, _ | ⟨i, free⟩⟩ := pool
  · simp [IsOwned, alloc]
  · simp [IsOwned, alloc]

theorem isOwned_alloc (h : pool.WF) :
    pool.alloc.2.IsOwned j ↔ pool.IsOwned j ∨ j = pool.alloc.1 := by
  obtain ⟨sets, _ | ⟨i, free⟩⟩ := pool
  · simp only [IsOwned, alloc, Array.size_push, List.not_mem_nil, not_false_eq_true, and_true]
    omega
  · have hi : i < sets.size := h.free_lt i List.mem_cons_self
    have hnot : i ∉ free := (List.nodup_cons.1 h.nodup).1
    simp only [IsOwned, alloc, List.mem_cons, not_or]
    constructor
    · rintro ⟨hlt, hfree⟩
      by_cases hj : j = i
      · exact .inr hj
      · exact .inl ⟨hlt, hj, hfree⟩
    · rintro (⟨hlt, -, hfree⟩ | rfl)
      · exact ⟨hlt, hfree⟩
      · exact ⟨hi, hnot⟩

theorem get_alloc_fst (h : pool.WF) {x : Nat} : (pool.get pool.alloc.1).contains x = false := by
  obtain ⟨sets, _ | ⟨i, free⟩⟩ := pool
  · simp [alloc, get]
  · exact h.free_empty i List.mem_cons_self x

theorem WF.alloc (h : pool.WF) : pool.alloc.2.WF := by
  obtain ⟨sets, _ | ⟨i, free⟩⟩ := pool
  · exact ⟨by simp [SetPool.alloc], List.nodup_nil, by simp [SetPool.alloc]⟩
  · exact {
      free_lt := fun j hj => h.free_lt j (List.mem_cons_of_mem _ hj)
      nodup := (List.nodup_cons.1 h.nodup).2
      free_empty := fun j hj x => h.free_empty j (List.mem_cons_of_mem _ hj) x }

/-! ## Taking a slot back -/

theorem get_release (hi : i < pool.sets.size) :
    (pool.release i).get j = if j = i then .empty else pool.get j := by
  simp only [get, release, Array.getD_eq_getD_getElem?]
  by_cases hj : j = i
  · subst hj
    rw [Array.getElem?_setIfInBounds_self_of_lt hi, if_pos rfl]
    rfl
  · rw [Array.getElem?_setIfInBounds_ne (Ne.symm hj), if_neg hj]

theorem isOwned_release : (pool.release i).IsOwned j ↔ pool.IsOwned j ∧ j ≠ i := by
  simp only [IsOwned, release, Array.size_setIfInBounds, List.mem_cons, not_or]
  constructor
  · rintro ⟨hlt, hne, hfree⟩
    exact ⟨⟨hlt, hfree⟩, hne⟩
  · rintro ⟨⟨hlt, hfree⟩, hne⟩
    exact ⟨hlt, hne, hfree⟩

theorem WF.release (h : pool.WF) (hi : pool.IsOwned i) : (pool.release i).WF where
  free_lt j hj := by
    simp only [SetPool.release, Array.size_setIfInBounds, List.mem_cons] at hj ⊢
    rcases hj with rfl | hj
    · exact hi.1
    · exact h.free_lt j hj
  nodup := List.nodup_cons.2 ⟨hi.2, h.nodup⟩
  free_empty j hj x := by
    rw [get_release hi.1]
    split
    · exact IdSet.contains_empty
    · rename_i hne
      exact h.free_empty j ((List.mem_cons.1 hj).resolve_left hne) x

end VertexSweep.SetPool
