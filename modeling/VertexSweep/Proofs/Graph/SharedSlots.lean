import VertexSweep.Proofs.Graph.Neighbors

/-!
# A slot is shared by two places

A place is a vertex with the number of one of its incident edges, which leads to a link. The slot of
an edge has one place among the in-edges of its target and one among the out-edges of its source, so
each place has one other that shares its slot: it is at the far end of the link, and leads back
(`EdgeList.Built.exists_other`). On a loop both are at the same vertex. A value that is written
through one place is read at these two and nowhere else (`DataGraph.setEdge_shared`).
-/

namespace VertexSweep

namespace Adjacency

/-- The link at a place, where the in-edges are numbered first. -/
def linkAt? (g : Adjacency) (place : VertexId × Nat) : Option Link :=
  (g.inOf place.1 ++ g.outOf place.1)[place.2]?

/-- The slot that is read at a place. -/
def slotAt? (g : Adjacency) (place : VertexId × Nat) : Option Nat :=
  (g.linkAt? place).map (·.slot)

variable {g : Adjacency} {v : VertexId} {i j : Nat} {link : Link}

theorem slotAt?_of_linkAt? {place : VertexId × Nat} (h : g.linkAt? place = some link) :
    g.slotAt? place = some link.slot := by
  rw [slotAt?, h]
  rfl

theorem linkAt?_inOf (h : (g.inOf v)[i]? = some link) : g.linkAt? (v, i) = some link := by
  rw [linkAt?, Array.getElem?_append_left (Array.getElem?_eq_some_iff.1 h).1]
  exact h

theorem linkAt?_outOf (h : (g.outOf v)[j]? = some link) :
    g.linkAt? (v, (g.inOf v).size + j) = some link := by
  rw [linkAt?, Array.getElem?_append_right (Nat.le_add_right ..), Nat.add_sub_cancel_left]
  exact h

theorem linkAt?_cases (h : g.linkAt? (v, i) = some link) :
    (g.inOf v)[i]? = some link ∨
      ∃ j, i = (g.inOf v).size + j ∧ (g.outOf v)[j]? = some link := by
  have hat : (g.inOf v ++ g.outOf v)[i]? = some link := h
  rw [Array.getElem?_append] at hat
  split at hat
  · exact .inl hat
  · exact .inr ⟨i - (g.inOf v).size, by omega, hat⟩

end Adjacency

namespace EdgeList

variable {l : EdgeList} {u v : VertexId} {i slot : Nat} {link : Link}

open Topology.Side

/-- The slot of an edge has two places, one at each end. -/
theorem Built.exists_places (hl : l.Built) (he : l.edges[slot]? = some (u, v)) :
    ∃ i j, l.graph.linkAt? (v, i) = some ⟨slot, u⟩ ∧ l.graph.linkAt? (u, j) = some ⟨slot, v⟩ ∧
      (v, i) ≠ (u, j) ∧
      ∀ place, l.graph.slotAt? place = some slot → place = (v, i) ∨ place = (u, j) := by
  obtain ⟨i, hi, hin⟩ := exists_place (·.2) (·.1) he
  obtain ⟨j, hj, hout⟩ := exists_place (·.1) (·.2) he
  have hi : (l.graph.inOf v)[i]? = some ⟨slot, u⟩ := by
    rw [hl.inOf_graph]
    exact hi
  have hj : (l.graph.outOf u)[j]? = some ⟨slot, v⟩ := by
    rw [hl.outOf_graph]
    exact hj
  have hne : (v, i) ≠ (u, (l.graph.inOf u).size + j) := by
    intro heq
    obtain ⟨rfl, rfl⟩ := Prod.mk.inj heq
    have hlt := (Array.getElem?_eq_some_iff.1 hi).1
    omega
  refine ⟨i, (l.graph.inOf u).size + j, Adjacency.linkAt?_inOf hi, Adjacency.linkAt?_outOf hj, hne,
    ?_⟩
  intro (w, k) hplace
  obtain ⟨link, hlink, hslot⟩ := Option.map_eq_some_iff.1 hplace
  rcases Adjacency.linkAt?_cases hlink with hat | ⟨k, rfl, hat⟩
  · rw [hl.inOf_graph] at hat
    obtain ⟨rfl, rfl⟩ := hin hat hslot
    exact .inl rfl
  · rw [hl.outOf_graph] at hat
    obtain ⟨rfl, rfl⟩ := hout hat hslot
    exact .inr rfl

theorem exists_edge (hlink : l.graph.linkAt? (v, i) = some link) :
    ∃ e, l.edges[link.slot]? = some e := by
  rcases Adjacency.linkAt?_cases hlink with hat | ⟨j, -, hat⟩
  · exact ⟨_, (Adjacency.mem_inOf_ofEdges.1 (Array.mem_of_getElem? hat)).2⟩
  · exact ⟨_, (Adjacency.mem_outOf_ofEdges.1 (Array.mem_of_getElem? hat)).2⟩

/-- **Each place shares its slot with one other**, which is at the far end and leads back. -/
theorem Built.exists_other (hl : l.Built) (hlink : l.graph.linkAt? (v, i) = some ⟨slot, u⟩) :
    ∃ k, (u, k) ≠ (v, i) ∧ l.graph.linkAt? (u, k) = some ⟨slot, v⟩ ∧
      ∀ place, l.graph.slotAt? place = some slot ↔ place = (v, i) ∨ place = (u, k) := by
  obtain ⟨⟨a, b⟩, he⟩ := exists_edge hlink
  obtain ⟨m, n, hin, hout, hne, honly⟩ := hl.exists_places he
  have hiff : ∀ place, l.graph.slotAt? place = some slot ↔ place = (b, m) ∨ place = (a, n) := by
    refine fun place => ⟨honly place, ?_⟩
    rintro (rfl | rfl)
    · exact Adjacency.slotAt?_of_linkAt? hin
    · exact Adjacency.slotAt?_of_linkAt? hout
  -- The place is that at the target of the edge, or that at its source.
  rcases honly _ (Adjacency.slotAt?_of_linkAt? hlink) with heq | heq
  · cases heq
    cases hlink.symm.trans hin
    exact ⟨n, hne.symm, hout, hiff⟩
  · cases heq
    cases hlink.symm.trans hout
    refine ⟨m, hne, hin, fun place => ?_⟩
    rw [hiff, or_comm]

end EdgeList

/-! ## Reading and writing -/

namespace DataGraph

variable {V E : Type} [Inhabited V]

/-- The vertex `v` opened for an update. -/
def view (g : DataGraph V E) (v : VertexId) : View V E :=
  ⟨v, g.values.getD v.toNat default, g.adjacency, g.slots⟩

omit [Inhabited V] in
/-- The graph with what an update has left in its view. -/
def put (g : DataGraph V E) (view : View V E) : DataGraph V E :=
  ⟨g.adjacency, g.values.setIfInBounds view.id.toNat view.value, view.slots⟩

variable {l : EdgeList} {g : DataGraph V E} {u v : VertexId} {i j slot : Nat} {link : Link} {x : E}

theorem put_view {slots : Array E} : g.put { g.view v with slots } = { g with slots } :=
  congrArg (DataGraph.mk g.adjacency · slots) setIfInBounds_getD

theorem put_write : g.put ((g.view v).write link x) =
    { g with slots := g.slots.setIfInBounds link.slot x } := put_view

theorem put_broadcast : g.put ((g.view v).broadcast x) =
    { g with slots := ((g.view v).broadcast x).slots } := by
  rw [View.broadcast, View.writeAll_eq]
  exact put_view

theorem setEdge?_view (hlink : g.adjacency.linkAt? (v, i) = some link) :
    (g.view v).setEdge? i x = some ((g.view v).write link x) :=
  congrArg (Option.map fun link => (g.view v).write link x) hlink

/-- A vertex has links to the slots of its edges. -/
theorem exists_slot_iff (hl : l.Built) (hg : g.adjacency = l.graph) :
    (∃ link ∈ (g.view v).links, link.slot = j) ↔
      (g.adjacency.endpoints? j).any (fun e => e.1 = v ∨ e.2 = v) = true := by
  have hlinks : (g.view v).links = l.graph.inOf v ++ l.graph.outOf v := by
    rw [← hg]
    rfl
  rw [hlinks, hg]
  constructor
  · rintro ⟨link, hlink, rfl⟩
    rcases Array.mem_append.1 hlink with hin | hout
    · exact (congrArg (Option.any _) (Adjacency.mem_inOf_ofEdges.1 hin).2).trans (by simp)
    · exact (congrArg (Option.any _) (Adjacency.mem_outOf_ofEdges.1 hout).2).trans (by simp)
  · intro hany
    obtain ⟨⟨a, b⟩, he, hends⟩ := (Option.any_eq_true ..).1 hany
    have hlt := hl.lt_vertexCount (Array.mem_of_getElem? he)
    rcases of_decide_eq_true hends with rfl | rfl
    · exact ⟨⟨j, b⟩, Array.mem_append_right _ (Adjacency.mem_outOf_ofEdges.2 ⟨hlt.1, he⟩), rfl⟩
    · exact ⟨⟨j, a⟩, Array.mem_append_left _ (Adjacency.mem_inOf_ofEdges.2 ⟨hlt.2, he⟩), rfl⟩

theorem slot?_broadcast (hl : l.Built) (hg : g.adjacency = l.graph) (hslots : g.slots.size = l.size)
    (v : VertexId) (x : E) (j : Nat) : (g.put ((g.view v).broadcast x)).slot? j =
      if (g.adjacency.endpoints? j).any (fun e => e.1 = v ∨ e.2 = v) then some x
      else g.slot? j := by
  rw [put_broadcast]
  by_cases hj : j < g.slots.size
  · simp only [← exists_slot_iff hl hg]
    exact View.getElem?_writeAll hj
  · have hend : g.adjacency.endpoints? j = none := by
      rw [hslots] at hj
      rw [hg]
      exact Array.getElem?_eq_none (Nat.not_lt.1 hj)
    have hsize : ((g.view v).broadcast x).slots.size = g.slots.size := View.size_slots_writeAll
    rw [hend, if_neg (by simp), slot?, slot?, Array.getElem?_eq_none (Nat.not_lt.1 hj),
      Array.getElem?_eq_none (hsize ▸ Nat.not_lt.1 hj)]

variable [Inhabited E]

theorem edge?_view : (g.view v).edge? i =
    (g.adjacency.linkAt? (v, i)).map fun link => ⟨link.far, g.slots.getD link.slot default⟩ := rfl

/-- A value that is written to a slot is read at the places of this slot. -/
theorem edge?_setSlot (hslot : slot < g.slots.size)
    (hlink : g.adjacency.linkAt? (u, j) = some ⟨slot, v⟩) :
    (DataGraph.view { g with slots := g.slots.setIfInBounds slot x } u).edge? j = some ⟨v, x⟩ := by
  rw [edge?_view, hlink, Option.map_some, Array.getD_eq_getD_getElem?,
    Array.getElem?_setIfInBounds_self_of_lt hslot, Option.getD_some]

theorem edge?_setSlot_of_ne (hne : g.adjacency.slotAt? (u, j) ≠ some slot) :
    (DataGraph.view { g with slots := g.slots.setIfInBounds slot x } u).edge? j =
      (g.view u).edge? j := by
  rw [edge?_view, edge?_view]
  cases hlink : g.adjacency.linkAt? (u, j) with
  | none => rfl
  | some link =>
    have hother : slot ≠ link.slot := by
      rintro rfl
      exact hne (Adjacency.slotAt?_of_linkAt? hlink)
    rw [Option.map_some, Option.map_some, Array.getD_eq_getD_getElem?,
      Array.getElem?_setIfInBounds_ne hother, ← Array.getD_eq_getD_getElem?]

/-- Writing `x` through the place `(v, i)` leaves `after`, and the place `(far, k)` has the same
slot. -/
structure SharedWrite (g : DataGraph V E) (v : VertexId) (i : Nat) (x : E) (after : View V E)
    (slot : Nat) (far : VertexId) (k : Nat) : Prop where
  before : ∃ old, (g.view v).edge? i = some ⟨far, old⟩
  written : (g.view v).setEdge? i x = some after
  here : after.edge? i = some ⟨far, x⟩
  there : ((g.put after).view far).edge? k = some ⟨v, x⟩
  ne : (far, k) ≠ (v, i)
  places : ∀ place, g.adjacency.slotAt? place = some slot ↔ place = (v, i) ∨ place = (far, k)
  otherSlots : ∀ j, j ≠ slot → (g.put after).slot? j = g.slot? j
  otherPlaces : ∀ u j, (u, j) ≠ (v, i) → (u, j) ≠ (far, k) →
    ((g.put after).view u).edge? j = (g.view u).edge? j
  values : (g.put after).values = g.values

theorem exists_sharedWrite (hl : l.Built) (hg : g.adjacency = l.graph)
    (hslots : g.slots.size = l.size) (x : E) (hi : i < (g.view v).links.size) :
    ∃ after slot far k, g.SharedWrite v i x after slot far k := by
  obtain ⟨⟨slot, far⟩, hlink⟩ : ∃ link, g.adjacency.linkAt? (v, i) = some link :=
    ⟨_, Array.getElem?_eq_getElem hi⟩
  obtain ⟨k, hne, hback, hiff⟩ := hl.exists_other (hg ▸ hlink)
  rw [← hg] at hback hiff
  have hslot : slot < g.slots.size := by
    obtain ⟨e, he⟩ := EdgeList.exists_edge (hg ▸ hlink)
    rw [hslots]
    exact (Array.getElem?_eq_some_iff.1 he).1
  refine ⟨(g.view v).write ⟨slot, far⟩ x, slot, far, k, ?_, setEdge?_view hlink,
    edge?_setSlot hslot hlink, ?_, hne, hiff, ?_, ?_, ?_⟩
  · exact ⟨g.slots.getD slot default, congrArg (Option.map _) hlink⟩
  · rw [put_write]
    exact edge?_setSlot hslot hback
  · intro j hj
    rw [put_write]
    exact Array.getElem?_setIfInBounds_ne hj.symm
  · intro u j hplace hother
    rw [put_write]
    apply edge?_setSlot_of_ne
    exact fun hslot => ((hiff _).1 hslot).elim hplace hother
  · rw [put_write]

/-- **A slot is shared by the two ends of its edge.** What is written through one place is read
there and at one other, at the far end, and nowhere else; a broadcast writes the slots of the edges
at its vertex. Neither touches a value of a vertex. -/
theorem setEdge_shared (hl : l.Built) (hg : g.adjacency = l.graph) (hslots : g.slots.size = l.size)
    (v : VertexId) (x : E) :
    (∀ i, i < (g.view v).links.size → ∃ after slot far k, g.SharedWrite v i x after slot far k) ∧
    (g.put ((g.view v).broadcast x)).values = g.values ∧
    ∀ j, (g.put ((g.view v).broadcast x)).slot? j =
      if (g.adjacency.endpoints? j).any (fun e => e.1 = v ∨ e.2 = v) then some x
      else g.slot? j := by
  refine ⟨fun i hi => exists_sharedWrite hl hg hslots x hi, ?_, slot?_broadcast hl hg hslots v x⟩
  rw [put_broadcast]

/-- The graph of `EdgeList.braid`, each edge with a number of its own. -/
def woven : DataGraph Nat Nat where
  adjacency := EdgeList.braid.graph
  values := #[1, 2, 3, 4]
  slots := #[10, 11, 12, 13, 14, 15, 16]

/-- The loop that is the in-edge number 3 is once more among the edges of its vertex. -/
theorem setEdge_shared_loop :
    (∃ after slot k, woven.SharedWrite 1 3 99 after slot 1 k ∧ k ≠ 3 ∧
      ((woven.put after).view 1).edge? k = some ⟨1, 99⟩) ∧
    (woven.put ((woven.view 2).broadcast 99)).slot? 1 = some 99 ∧
    (woven.put ((woven.view 2).broadcast 99)).slot? 2 = some 12 := by
  obtain ⟨hset, -, -⟩ := setEdge_shared (g := woven) EdgeList.built_braid rfl rfl 1 99
  obtain ⟨-, -, hbroadcast⟩ := setEdge_shared (g := woven) EdgeList.built_braid rfl rfl 2 99
  refine ⟨?_, (hbroadcast 1).trans rfl, (hbroadcast 2).trans rfl⟩
  obtain ⟨after, slot, far, k, hshared⟩ := hset 3 (by decide)
  obtain rfl : (1 : VertexId) = far := by
    obtain ⟨old, hbefore⟩ := hshared.before
    have hloop : (woven.view 1).edge? 3 = some ⟨1, 13⟩ := rfl
    cases hloop.symm.trans hbefore
    rfl
  refine ⟨after, slot, k, hshared, ?_, hshared.there⟩
  rintro rfl
  exact hshared.ne rfl

end DataGraph

end VertexSweep
