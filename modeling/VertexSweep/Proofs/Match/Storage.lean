import Mathlib.Data.Finset.Card
import Mathlib.Data.Finset.Range
import VertexSweep.Proofs.Match.Table

/-!
# Where a table keeps its sets

A history of a table is a list of calls, each of which may fail. After any history the four parts of
a table agree (`Candidates.Consistent`): the indicator marks the vertices that have a slot, which
are those with a candidate, and every slot of the pool either has one vertex or is listed once as
free. Slots are numbered below the capacity and below 2³² (`Candidates.size_pool_callAll`), because
a new one is made only when every other one has a vertex (`Candidates.WF.size_pool_lt`). Counting
the slots in use is counting the live vertices (`Candidates.WF.allocated_eq`).
-/

namespace VertexSweep

namespace SetPool

variable {pool : SetPool}

/-- The slots that are handed out are counted by taking the free ones away. -/
theorem WF.live_eq (h : pool.WF) :
    pool.live = (Finset.range pool.sets.size \ pool.free.toFinset).card := by
  have hsub : pool.free.toFinset ⊆ Finset.range pool.sets.size := by
    intro i hi
    exact Finset.mem_range.2 (h.free_lt i (List.mem_toFinset.1 hi))
  rw [Finset.card_sdiff_of_subset hsub, Finset.card_range, List.toFinset_card_of_nodup h.nodup]
  rfl

theorem mem_owned {i : Nat} :
    i ∈ Finset.range pool.sets.size \ pool.free.toFinset ↔ pool.IsOwned i := by
  simp [IsOwned]

end SetPool

namespace Candidates

variable {t : Candidates} {u v : VertexId} {p : PatternId} {k i : Nat}

/-! ## Histories -/

/-- A call that may change a table. -/
inductive Call where
  | add (u : VertexId) (p : PatternId)
  | prune (u : VertexId) (p : PatternId)
  /-- Seals the table. -/
  | close
deriving DecidableEq, Repr

/-- What a call gives back; sealing gives nothing. -/
abbrev Answer := Option (Except Fault Bool)

def call (t : Candidates) : Call → Answer × Candidates
  | .add u p => (some (t.add u p).1, (t.add u p).2)
  | .prune u p => (some (t.prune u p).1, (t.prune u p).2)
  | .close => (none, t.sealed)

/-- Makes calls one after the other, whether or not they fail, and collects the answers. -/
def callAll {S : Type} (call : S → Call → Answer × S) : S → List Call → List Answer × S
  | s, [] => ([], s)
  | s, c :: cs =>
    let (answer, s) := call s c
    let (answers, s) := callAll call s cs
    (answer :: answers, s)

/-- What every call keeps holds after any history. -/
theorem callAll_induction {P : Candidates → Prop} (step : ∀ t c, P t → P (t.call c).2)
    (start : P t) (cs : List Call) : P (callAll call t cs).2 := by
  induction cs generalizing t with
  | nil => exact start
  | cons c cs ih => exact ih (step t c start)

theorem WF.call (h : t.WF) (c : Call) : (t.call c).2.WF := by
  cases c with
  | add u p => exact h.add
  | prune u p => exact h.prune
  | close => exact wf_sealed.2 h

theorem WF.callAll (h : t.WF) (cs : List Call) : (callAll Candidates.call t cs).2.WF :=
  callAll_induction (fun _ c h => h.call c) h cs

/-! ## Slots and vertices -/

/-- A slot that is not free has one vertex. -/
theorem Linked.exists_unique_holds (h : t.Linked) (hi : t.pool.IsOwned i) :
    ∃ k, t.Holds k i ∧ ∀ j, t.Holds j i → j = k := by
  obtain ⟨k, hk⟩ := (h.owned i).1 hi
  exact ⟨k, hk, fun j hj => h.injective hj hk⟩

theorem Linked.not_holds_of_free (h : t.Linked) (hi : i ∈ t.pool.free) : ¬ t.Holds k i :=
  fun hk => (h.isOwned hk).2 hi

/-- When no slot is free and some vertex has none, another slot can be numbered. -/
theorem WF.size_pool_lt (h : t.WF) (hfree : t.pool.free = []) (hu : u.toNat < t.capacity)
    (hnone : ∀ i, ¬ t.Holds u.toNat i) : t.pool.sets.size < min t.capacity 4294967296 := by
  -- Every slot has a vertex other than `u`, and no two slots have the same.
  have howner : ∀ i ∈ Finset.range t.pool.sets.size, ∃ k, t.Holds k i := by
    intro i hi
    exact (h.owned i).1 ⟨Finset.mem_range.1 hi, by simp [hfree]⟩
  choose! owner howner using howner
  have hmaps : Set.MapsTo owner (Finset.range t.pool.sets.size)
      ((Finset.range (min t.capacity 4294967296)).erase u.toNat) := by
    intro i hi
    have hholds := howner i hi
    have hlt : owner i < min t.capacity 4294967296 :=
      Nat.lt_min.2 ⟨hholds.lt_capacity, h.lt_of_holds hholds⟩
    have hne : owner i ≠ u.toNat := fun heq => hnone i (heq ▸ hholds)
    simp [hne, hlt]
  have hinj : Set.InjOn owner (Finset.range t.pool.sets.size) := by
    intro i hi j hj heq
    exact (howner i hi).unique (heq ▸ howner j hj)
  have hcard := Finset.card_le_card_of_injOn owner hmaps hinj
  have hmem : u.toNat ∈ Finset.range (min t.capacity 4294967296) :=
    Finset.mem_range.2 (Nat.lt_min.2 ⟨hu, u.toNat_lt⟩)
  rw [Finset.card_range, Finset.card_erase_of_mem hmem, Finset.card_range] at hcard
  have hpos := Finset.mem_range.1 hmem
  omega

/-- A call makes a slot only for a vertex that can have it. -/
theorem WF.size_pool_call (h : t.WF) (c : Call)
    (hsize : t.pool.sets.size ≤ min t.capacity 4294967296) :
    (t.call c).2.capacity = t.capacity ∧
      (t.call c).2.pool.sets.size ≤ min t.capacity 4294967296 := by
  cases c with
  | add u p =>
    refine ⟨shape_add.1, ?_⟩
    rcases size_pool_add (t := t) (u := u) (p := p) with hsame | ⟨hfree, hu, hnone, hnew⟩
    · exact hsame.trans_le hsize
    · exact hnew.trans_le (h.size_pool_lt hfree hu hnone)
  | prune u p => exact ⟨shape_prune.1, shape_prune.2.2.trans_le hsize⟩
  | close => exact ⟨rfl, hsize⟩

/-- No history makes more slots than there are vertices to have them. -/
theorem size_pool_callAll (capacity width : Nat) (cs : List Call) :
    (callAll call (ofCapacity capacity width) cs).2.pool.sets.size ≤ min capacity 4294967296 := by
  refine (callAll_induction (P := fun t => t.WF ∧ t.capacity = capacity ∧
    t.pool.sets.size ≤ min capacity 4294967296) ?_ ?_ cs).2.2
  · rintro t c ⟨hwf, rfl, hsize⟩
    exact ⟨hwf.call c, hwf.size_pool_call c hsize⟩
  · exact ⟨.ofCapacity capacity width, Array.size_replicate, Nat.zero_le _⟩

/-- As many sets are in use as there are live vertices. -/
theorem WF.allocated_eq (h : t.WF) : t.allocated = t.liveVertices.length := by
  have hslot : ∀ u ∈ t.liveVertices, ∃ i, t.Holds u.toNat i := by
    intro u hu
    exact (h.indicator u.toNat).1 ((mem_liveVertices h).1 hu)
  choose! slotOf hslot using hslot
  have hnodup : (t.liveVertices.map slotOf).Nodup := by
    refine List.Nodup.map_on (fun u hu v hv heq => ?_) (nodup_liveVertices h)
    exact UInt32.toNat_inj.1 (h.injective (heq ▸ hslot u hu) (hslot v hv))
  have howned : (t.liveVertices.map slotOf).toFinset =
      Finset.range t.pool.sets.size \ t.pool.free.toFinset := by
    ext i
    rw [SetPool.mem_owned, h.owned, List.mem_toFinset, List.mem_map]
    constructor
    · rintro ⟨u, hu, rfl⟩
      exact ⟨u.toNat, hslot u hu⟩
    · rintro ⟨k, hk⟩
      have hword : (UInt32.ofNat k).toNat = k := UInt32.toNat_ofNat_of_lt' (h.lt_of_holds hk)
      have hlive : UInt32.ofNat k ∈ t.liveVertices := by
        rw [mem_liveVertices h, isLive, h.indicator, hword]
        exact ⟨i, hk⟩
      refine ⟨UInt32.ofNat k, hlive, ?_⟩
      have hheld := hslot _ hlive
      rw [hword] at hheld
      exact hheld.unique hk
  rw [allocated, h.pool.live_eq, ← howned, List.toFinset_card_of_nodup hnodup, List.length_map]

/-! ## The parts agree -/

/-- Indicator, slots, sets and free list of a table agree. -/
structure Consistent (t : Candidates) : Prop where
  isLive_iff_slot : ∀ k, t.indicator.contains k = true ↔ ∃ i, t.Holds k i
  isLive_iff_nonempty : ∀ k, t.indicator.contains k = true ↔
    ∃ i, t.Holds k i ∧ (t.pool.get i).isEmpty = false
  slot_injective : ∀ k j i, t.Holds k i → t.Holds j i → k = j
  /-- Every slot of the pool is of one kind or of the other. -/
  owned_or_free : ∀ i < t.pool.sets.size,
    ((∃ k, t.Holds k i ∧ ∀ j, t.Holds j i → j = k) ∧ t.pool.free.count i = 0) ∨
      ((∀ k, ¬ t.Holds k i) ∧ t.pool.free.count i = 1)
  slot_lt : ∀ k i, t.Holds k i → i < t.pool.sets.size
  free_lt : ∀ i ∈ t.pool.free, i < t.pool.sets.size
  free_empty : ∀ i ∈ t.pool.free, (t.pool.get i).isEmpty = true
  lt_width : ∀ k i x, t.Holds k i → (t.pool.get i).contains x = true → x < t.width
  /-- Slots are numbered by words. -/
  size_le : t.pool.sets.size ≤ 4294967296

/-- **The parts of a table agree after every history**, whatever its calls ask for and however many
of them fail. -/
theorem consistent_callAll (capacity width : Nat) (cs : List Call) :
    (callAll call (ofCapacity capacity width) cs).2.Consistent := by
  have h := (WF.ofCapacity capacity width).callAll cs
  have hsize := size_pool_callAll capacity width cs
  generalize (callAll call (ofCapacity capacity width) cs).2 = t at h hsize
  refine {
    isLive_iff_slot := h.indicator
    isLive_iff_nonempty := fun k => ?_
    slot_injective := fun k j i => h.injective
    owned_or_free := fun i hi => ?_
    slot_lt := fun k i hk => (h.isOwned hk).1
    free_lt := h.pool.free_lt
    free_empty := fun i hi => IdSet.isEmpty_iff.2 (h.pool.free_empty i hi)
    lt_width := fun k i x hk hx => (h.bounded hk hx).1
    size_le := hsize.trans (Nat.min_le_right ..) }
  · rw [h.indicator]
    refine exists_congr fun i => ⟨fun hk => ⟨hk, ?_⟩, And.left⟩
    obtain ⟨x, hx⟩ := h.nonempty hk
    rw [← Bool.not_eq_true, IdSet.isEmpty_iff]
    intro hnothing
    rw [hnothing x] at hx
    cases hx
  · by_cases hfree : i ∈ t.pool.free
    · exact .inr ⟨fun k => h.not_holds_of_free hfree, List.count_eq_one_of_mem h.pool.nodup hfree⟩
    · exact .inl ⟨h.exists_unique_holds ⟨hi, hfree⟩, List.count_eq_zero_of_not_mem hfree⟩

end Candidates

end VertexSweep
