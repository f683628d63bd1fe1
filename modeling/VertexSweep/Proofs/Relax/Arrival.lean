import VertexSweep.Proofs.Relax.Pace
import VertexSweep.Proofs.Relax.Propagation

/-!
# Least numbers arrive rank by rank

In a propagation every vertex may have a least number among those that fit it, with which it starts
or which is offered by a vertex of lower rank (`Propagation.Arrivals`). Such a number cannot be
missed, nor lost again: in its first turn after all vertices of lower rank offer theirs, the vertex
has it and offers it in turn (`Arrivals.Arrived`). So a propagation with least numbers is ranked
(`Arrivals.ranked`).
-/

namespace VertexSweep

open Components

namespace Components.Direction

variable {direction : Direction} {l : EdgeList} {e : VertexId × VertexId} {u : VertexId}

theorem lt_vertexCount_of_writes (hl : l.Built) (he : e ∈ l.edges)
    (hwrites : direction.Writes e u) : u.toNat < l.vertexCount := by
  obtain ⟨hsource, htarget⟩ := hl.lt_vertexCount he
  cases direction with
  | directed => exact hwrites ▸ hsource
  | undirected =>
    rcases hwrites with rfl | rfl
    · exact hsource
    · exact htarget

end Components.Direction

namespace Propagation

variable {l : EdgeList} {P : Propagation l} {x : Numbers} {u v w : VertexId}
  {view : View UInt32 UInt32} {e : VertexId × VertexId} {j : Nat}

/-! ## Quiet turns -/

/-- A stable vertex has nothing to do in its turn. -/
theorem verdict_propagate_of_stable (hview : view.Shows l.graph x) (h : P.Stable x view.id) :
    (propagate P.direction P.offer view).verdict = .ok .quiet := by
  have hleast : leastAround P.direction view = x.value view.id := by
    refine UInt32.le_antisymm (leastAround_le hview) ?_
    obtain heq | ⟨j, e, he, hr, heq⟩ : leastAround P.direction view = x.value view.id ∨
        ∃ j e, l.edges[j]? = some e ∧ P.direction.Reads e view.id ∧
          leastAround P.direction view = x.slot j := leastAround_eq_or_exists hview
    · exact UInt32.le_of_eq heq.symm
    · exact heq ▸ h.le_slot he hr
  have hlowers : View.Lowers _ _ _ (lowered P.direction P.offer view) := View.lower_lowers
  have hnone : (lowered P.direction P.offer view).2 = #[] := by
    refine Array.eq_empty_iff_forall_not_mem.2 fun r hr => ?_
    rcases hlowers.asked r hr with hbefore | ⟨link, hlink, -, hlt⟩
    · simp at hbefore
    · obtain ⟨e, he, hwrites, -⟩ :=
        Direction.writes_of_mem_targets hview (Array.mem_toList_iff.1 hlink)
      have hslot : x.slot link.slot ≤ P.offer (x.value view.id) := h.slot_le he hwrites
      rw [hleast] at hlt
      exact UInt32.not_lt.2 hslot (hview.slot link.slot ▸ hlt)
  rw [propagate_eq, hnone, hleast, hview.value]
  simp [Activity.ofChanged]

/-! ## Arrivals -/

/-- The least numbers that may come to stand at the vertices. A vertex has its own from the first,
or it reads what a vertex of lower rank offers when that has its own. -/
structure Arrivals (P : Propagation l) where
  rank : VertexId → Nat
  goal : VertexId → UInt32
  rank_lt : ∀ {v : VertexId}, v.toNat < l.vertexCount → rank v < l.vertexCount
  goal_le : ∀ {v : VertexId} {c}, v.toNat < l.vertexCount → P.Fits v c → goal v ≤ c
  arrives : ∀ {v : VertexId}, v.toNat < l.vertexCount → P.first v ≤ goal v ∨
    ∃ e ∈ l.edges, ∃ u, P.direction.Writes e u ∧ P.direction.Reads e v ∧ rank u < rank v ∧
      P.offer (goal u) ≤ goal v

namespace Arrivals

variable {A : P.Arrivals}

/-- The vertex has its least number and has offered it. -/
structure Arrived (A : P.Arrivals) (x : Numbers) (v : VertexId) : Prop where
  value_le : x.value v ≤ A.goal v
  slot_le : ∀ {j e}, l.edges[j]? = some e → P.direction.Writes e v →
    x.slot j ≤ P.offer (A.goal v)

def ranking (A : P.Arrivals) : Relaxation.Ranking where
  rank := A.rank
  resting := A.Arrived

theorem Arrived.value_eq (h : A.Arrived x v) (hsound : P.Sound x) (hv : v.toNat < l.vertexCount) :
    x.value v = A.goal v :=
  UInt32.le_antisymm h.value_le (A.goal_le hv (hsound.fits hv))

/-- Vertices that have their least numbers and have offered them are stable. -/
theorem Arrived.stable (h : A.Arrived x v) (hsound : P.Sound x) (hv : v.toNat < l.vertexCount) :
    P.Stable x v where
  le_slot he hreads := UInt32.le_trans h.value_le (A.goal_le hv (hsound.fits_slot he hreads))
  slot_le he hwrites := by
    rw [h.value_eq hsound hv]
    exact h.slot_le he hwrites

/-- When the lower ranks have offered their numbers the vertex has or reads its own. -/
theorem value_le_or_exists (hl : l.Built) (hsound : P.Sound x) (hv : v.toNat < l.vertexCount)
    (hbelow : A.ranking.RestsBelow l.graph (A.rank v) x) : x.value v ≤ A.goal v ∨
      ∃ j e, l.edges[j]? = some e ∧ P.direction.Reads e v ∧ x.slot j ≤ A.goal v := by
  rcases A.arrives hv with hfirst | ⟨e, he, u, hwrites, hreads, hrank, hoffer⟩
  · exact .inl (UInt32.le_trans (hsound.le_first hv) hfirst)
  · have hu : u.toNat < l.graph.vertexCount := by
      rw [Adjacency.vertexCount_ofEdges]
      exact Direction.lt_vertexCount_of_writes hl he hwrites
    have harrived : A.Arrived x u := hbelow u hu hrank
    obtain ⟨j, hj⟩ := Array.getElem?_of_mem he
    exact .inr ⟨j, e, hj, hreads, UInt32.le_trans (harrived.slot_le hj hwrites) hoffer⟩

theorem arrived_of_stable (hl : l.Built) (hsound : P.Sound x) (hv : v.toNat < l.vertexCount)
    (hbelow : A.ranking.RestsBelow l.graph (A.rank v) x) (h : P.Stable x v) : A.Arrived x v := by
  have hvalue : x.value v ≤ A.goal v := by
    rcases value_le_or_exists hl hsound hv hbelow with hvalue | ⟨j, e, he, hreads, hslot⟩
    · exact hvalue
    · exact UInt32.le_trans (h.le_slot he hreads) hslot
  have heq := UInt32.le_antisymm hvalue (A.goal_le hv (hsound.fits hv))
  exact ⟨hvalue, fun he hwrites => heq ▸ h.slot_le he hwrites⟩

/-- Turns of other vertices only lower what stands at the edges. -/
theorem Arrived.after {u : Update Unit UInt32 UInt32} (h : A.Arrived x v) (hne : v ≠ view.id)
    (hu : P.Propagates x view u) : A.Arrived (x.after view.id u.view) v where
  value_le := (Numbers.value_after_of_ne hne).symm ▸ h.value_le
  slot_le {j e} he hwrites := by
    rw [Numbers.slot_after]
    refine UInt32.le_trans ?_ (h.slot_le he hwrites)
    rcases hu.slot_eq j with hsame | ⟨hoffer, hlt, -⟩
    · exact UInt32.le_of_eq hsame
    · exact UInt32.le_of_lt (hoffer ▸ hlt)

/-- In its turn a vertex that has or reads its least number adopts and offers it. -/
theorem arrived_self {u : Update Unit UInt32 UInt32} (hl : l.Built) (hview : view.Shows l.graph x)
    (hsound : P.Sound x) (hbelow : A.ranking.RestsBelow l.graph (A.rank view.id) x)
    (hu : P.Propagates x view u) : A.Arrived (x.after view.id u.view) view.id := by
  have hafter := hsound.propagates hview hu
  have hvalue : (x.after view.id u.view).value view.id ≤ A.goal view.id := by
    rw [Numbers.value_after_self]
    rcases value_le_or_exists hl hsound hview.id_lt hbelow with hvalue | ⟨j, e, he, hreads, hslot⟩
    · exact UInt32.le_trans hu.value_le hvalue
    · exact UInt32.le_trans (hu.value_le_slot he hreads) hslot
  have heq := UInt32.le_antisymm hvalue (A.goal_le hview.id_lt (hafter.fits hview.id_lt))
  exact ⟨hvalue, fun he hwrites => heq ▸ hu.stable_self.slot_le he hwrites⟩

/-- **A propagation is ranked** by the order in which its least numbers arrive. -/
def ranked (A : P.Arrivals) (hl : l.Built)
    {start : View UInt32 UInt32 → Update Unit UInt32 UInt32}
    (hstart : ∀ view, ∃ requests, start view = P.establish view requests ∧
      (∀ first last, .remove first last ∉ requests) ∧
      ((∀ x, P.Started l.vertexCount x → P.Stable x view.id) ∨
        ∃ urgent, .add view.id urgent ∈ requests)) : (P.law hl hstart).Ranked where
  toRanking := A.ranking
  rank_lt v hv := by
    rw [Adjacency.vertexCount_ofEdges] at hv ⊢
    exact A.rank_lt hv
  resting_of_stable hsound hv hbelow hstable := by
    rw [Adjacency.vertexCount_ofEdges] at hv
    exact arrived_of_stable hl hsound hv hbelow hstable
  resting_after {x view v} hview hsound hv hbelow hcase := by
    have hu := (propagates_propagate (P := P) hview).1
    rcases eq_or_ne v view.id with rfl | hne
    · exact arrived_self hl hview hsound hbelow hu
    · exact (hcase.resolve_left hne).after hne hu
  quiet {x view} hview hsound hall := by
    have harrived : A.Arrived x view.id := hall view.id hview.lt_vertexCount
    exact verdict_propagate_of_stable hview (harrived.stable hsound hview.id_lt)

end Arrivals

end Propagation

end VertexSweep
