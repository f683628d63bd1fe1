import VertexSweep.Graph.View

/-!
# Links and slots

Edge lists are made by a few operations (`EdgeList.Built`), all of which keep the endpoints below
the vertex count. The graph of such a list links the edge in a slot from both of its endpoints:
as an out-link of its source (`Adjacency.mem_outOf_ofEdges`) and as an in-link of its target
(`Adjacency.mem_inOf_ofEdges`). Writing to links writes their slots and nothing else
(`View.getElem?_writeAll`).
-/

namespace VertexSweep

namespace EdgeList

/-- An edge list that the operations on edge lists have made. -/
inductive Built : EdgeList → Prop where
  | empty : Built .empty
  | ofVertexCount (n : Nat) : Built (.ofVertexCount n)
  | push {l : EdgeList} (source target : VertexId) : Built l → Built (l.push source target)
  | reserve {l : EdgeList} (n : Nat) : Built l → Built (l.reserve n)

variable {l : EdgeList} {u v : VertexId}

/-- Both endpoints of an edge are counted as vertices. -/
theorem Built.lt_vertexCount (h : l.Built) (hmem : (u, v) ∈ l.edges) :
    u.toNat < l.vertexCount ∧ v.toNat < l.vertexCount := by
  induction h with
  | empty => simp [EdgeList.empty] at hmem
  | ofVertexCount n => simp [EdgeList.ofVertexCount] at hmem
  | push source target _ ih =>
    simp only [EdgeList.push] at hmem ⊢
    rcases Array.mem_push.1 hmem with hold | hnew
    · have := ih hold
      omega
    · cases hnew
      omega
  | reserve n _ ih =>
    have := ih hmem
    simp only [EdgeList.reserve]
    omega

theorem Built.foldl_push (h : l.Built) {f : VertexId × VertexId → VertexId × VertexId}
    {edges : List (VertexId × VertexId)} :
    (edges.foldl (fun l e => l.push (f e).1 (f e).2) l).Built := by
  induction edges generalizing l with
  | nil => exact h
  | cons e edges ih => exact ih (h.push (f e).1 (f e).2)

theorem Built.ofList (edges : List (VertexId × VertexId)) : (EdgeList.ofList edges).Built :=
  Built.empty.foldl_push (f := id)

end EdgeList

namespace Adjacency

variable {n : Nat} {edges : Array (VertexId × VertexId)} {u v : VertexId} {link : Link}

@[simp]
theorem vertexCount_ofEdges : (ofEdges n edges).vertexCount = n := size_rowsByKey

/-- An accepted edge list becomes the graph of its edges. -/
theorem eq_ofEdges_of_ofEdgeList {l : EdgeList} {g : Adjacency} (h : ofEdgeList l = .ok g) :
    g = ofEdges l.vertexCount l.edges := by
  unfold ofEdgeList at h
  split at h
  · cases h
  split at h
  · cases h
  split at h
  · cases h
  cases h
  rfl

private theorem mem_row {items : Array (UInt32 × Link)} :
    link ∈ (rowsByKey n items).getD u.toNat #[] ↔ u.toNat < n ∧ (u, link) ∈ items := by
  rw [Array.getD_eq_getD_getElem?]
  by_cases hu : u.toNat < n
  · simp only [getElem?_rowsByKey hu, Option.getD_some, Array.mem_map, Array.mem_filter, hu,
      true_and, beq_iff_eq, UInt32.toNat_inj]
    constructor
    · rintro ⟨⟨key, _⟩, ⟨hmem, rfl⟩, rfl⟩
      exact hmem
    · exact fun hmem => ⟨(u, link), ⟨hmem, rfl⟩, rfl⟩
  · have hnone : (rowsByKey n items)[u.toNat]? = none :=
      Array.getElem?_eq_none (by rw [size_rowsByKey]; omega)
    simp [hnone, hu]

/-- A row of links holds one for every edge at its vertex. -/
private theorem mem_side (near far : VertexId × VertexId → VertexId) :
    link ∈ (rowsByKey n (edges.mapIdx fun slot e => (near e, (⟨slot, far e⟩ : Link)))).getD
        u.toNat #[] ↔
      u.toNat < n ∧ ∃ e, edges[link.slot]? = some e ∧ near e = u ∧ far e = link.far := by
  rw [mem_row, Array.mem_mapIdx]
  refine and_congr_right fun _ => ?_
  constructor
  · intro ⟨slot, hslot, heq⟩
    cases heq
    exact ⟨_, Array.getElem?_eq_getElem hslot, rfl, rfl⟩
  · intro ⟨e, he, hnear, hfar⟩
    obtain ⟨hslot, heq⟩ := Array.getElem?_eq_some_iff.1 he
    exact ⟨link.slot, hslot, by rw [heq, hnear, hfar]⟩

/-- The out-links of a vertex are the slots of the edges from it. -/
theorem mem_outOf_ofEdges :
    link ∈ (ofEdges n edges).outOf u ↔ u.toNat < n ∧ edges[link.slot]? = some (u, link.far) := by
  rw [outOf, ofEdges, mem_side (·.1) (·.2)]
  refine and_congr_right fun _ => ?_
  constructor
  · rintro ⟨_, he, rfl, hfar⟩
    rw [he, ← hfar]
  · exact fun he => ⟨_, he, rfl, rfl⟩

/-- The in-links of a vertex are the slots of the edges to it. -/
theorem mem_inOf_ofEdges :
    link ∈ (ofEdges n edges).inOf v ↔ v.toNat < n ∧ edges[link.slot]? = some (link.far, v) := by
  rw [inOf, ofEdges, mem_side (·.2) (·.1)]
  refine and_congr_right fun _ => ?_
  constructor
  · rintro ⟨_, he, rfl, hfar⟩
    rw [he, ← hfar]
  · exact fun he => ⟨_, he, rfl, rfl⟩

theorem mem_outNeighbors_ofEdges :
    v ∈ (ofEdges n edges).outNeighbors u ↔ u.toNat < n ∧ (u, v) ∈ edges := by
  simp only [outNeighbors, List.mem_map, Array.mem_toList_iff, mem_outOf_ofEdges]
  constructor
  · rintro ⟨link, ⟨hu, hslot⟩, rfl⟩
    exact ⟨hu, Array.mem_of_getElem? hslot⟩
  · rintro ⟨hu, hmem⟩
    obtain ⟨slot, hslot⟩ := Array.getElem?_of_mem hmem
    exact ⟨⟨slot, v⟩, ⟨hu, hslot⟩, rfl⟩

end Adjacency

/-- An array stays as it is when what it holds is written back. -/
theorem setIfInBounds_getD {α : Type} {xs : Array α} {j : Nat} {d : α} :
    xs.setIfInBounds j (xs.getD j d) = xs := by
  by_cases hj : j < xs.size
  · simp [Array.setIfInBounds, hj]
  · exact Array.setIfInBounds_eq_of_size_le (Nat.not_lt.1 hj)

namespace View

variable {V E : Type} {view : View V E} {links : Array Link} {x : E}

/-- Writing to links changes their slots and nothing else. -/
theorem writeAll_eq : view.writeAll links x = { view with
    slots := links.foldl (fun slots l => slots.setIfInBounds l.slot x) view.slots } := by
  rw [writeAll, ← Array.foldl_toList, ← Array.foldl_toList]
  generalize links.toList = ls
  induction ls generalizing view with
  | nil => rfl
  | cons l ls ih => rw [List.foldl_cons, ih]; rfl

@[simp]
theorem size_slots_writeAll : (view.writeAll links x).slots.size = view.slots.size := by
  rw [writeAll_eq, ← Array.foldl_toList]
  simp only
  generalize links.toList = ls
  generalize view.slots = slots
  induction ls generalizing slots with
  | nil => rfl
  | cons l ls ih => rw [List.foldl_cons, ih, Array.size_setIfInBounds]

theorem getElem?_writeAll {j : Nat} (hj : j < view.slots.size) :
    (view.writeAll links x).slots[j]? =
      if ∃ l ∈ links, l.slot = j then some x else view.slots[j]? := by
  rw [writeAll_eq, ← Array.foldl_toList]
  simp only [← Array.mem_toList_iff]
  generalize links.toList = ls
  generalize view.slots = slots at hj
  induction ls generalizing slots with
  | nil => simp
  | cons l ls ih =>
    rw [List.foldl_cons, ih _ (by rwa [Array.size_setIfInBounds])]
    by_cases hlater : ∃ l' ∈ ls, l'.slot = j
    · obtain ⟨l', hmem, hslot⟩ := hlater
      rw [if_pos ⟨l', hmem, hslot⟩, if_pos ⟨l', List.mem_cons_of_mem _ hmem, hslot⟩]
    · rw [if_neg hlater]
      by_cases hnow : l.slot = j
      · subst hnow
        rw [if_pos ⟨l, List.mem_cons_self, rfl⟩, Array.getElem?_setIfInBounds_self_of_lt hj]
      · rw [Array.getElem?_setIfInBounds_ne hnow, if_neg]
        rintro ⟨l', hmem, hslot⟩
        rcases List.mem_cons.1 hmem with rfl | htail
        · exact hnow hslot
        · exact hlater ⟨l', htail, hslot⟩

/-- Views that agree about a slot still do so when the same is written. -/
theorem getElem?_writeAll_congr {view' : View V E} {j : Nat}
    (h : view'.slots[j]? = view.slots[j]?) :
    (view'.writeAll links x).slots[j]? = (view.writeAll links x).slots[j]? := by
  have hbounds : j < view'.slots.size ↔ j < view.slots.size := by grind
  by_cases hj : j < view.slots.size
  · rw [getElem?_writeAll hj, getElem?_writeAll (hbounds.2 hj), h]
  · have hj' : ¬ j < view'.slots.size := fun hlt => hj (hbounds.1 hlt)
    rw [Array.getElem?_eq_none (by rw [size_slots_writeAll]; omega),
      Array.getElem?_eq_none (by rw [size_slots_writeAll]; omega)]

end View

end VertexSweep
