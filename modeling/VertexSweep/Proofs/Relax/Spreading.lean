import Mathlib.Order.WellFounded
import VertexSweep.Proofs.Relax.Arrival
import VertexSweep.Proofs.Relax.Components

/-!
# Ids spread hop by hop

The least id that is connected to a vertex is handed on along a shortest connection, on which every
vertex has the same least id (`Components.exists_arrivals`). It advances one edge in every iteration,
so that the number of iterations is bounded by the vertex count, in either direction of travel
(`ids_converge`).
-/

namespace VertexSweep.Components

variable {l : EdgeList} {direction : Direction} {settings : Settings} {g : Adjacency}
  {u v : VertexId}

namespace Direction

/-- Ids travel along these edges. -/
def edges : Direction → EdgeList → EdgeList
  | undirected, l => l.bothWays
  | directed, l => l

theorem built_edges (hl : l.Built) : (direction.edges l).Built := by
  cases direction with
  | undirected => exact EdgeList.built_bothWays hl
  | directed => exact hl

theorem vertexCount_edges (hl : l.Built) : (direction.edges l).vertexCount = l.vertexCount := by
  cases direction with
  | undirected => exact EdgeList.vertexCount_bothWays hl
  | directed => rfl

theorem connects_iff_exists_walk :
    direction.Connects l u v ↔ ∃ h, (direction.edges l).Walk u v h := by
  rw [← EdgeList.reaches_iff_exists_walk]
  cases direction with
  | undirected => exact EdgeList.reaches_bothWays_iff.symm
  | directed => exact Iff.rfl

theorem exists_passes_of_mem_edges (h : (u, v) ∈ (direction.edges l).edges) :
    ∃ e ∈ l.edges, direction.Writes e u ∧ direction.Reads e v := by
  cases direction with
  | directed => exact ⟨(u, v), h, rfl, rfl⟩
  | undirected =>
    rcases EdgeList.mem_bothWays.1 h with h | h
    · exact ⟨(u, v), h, .inl rfl, .inr rfl⟩
    · exact ⟨(v, u), h, .inr rfl, .inl rfl⟩

theorem Connects.lt_vertexCount (h : direction.Connects l u v) (hl : l.Built)
    (hv : v.toNat < l.vertexCount) : u.toNat < l.vertexCount := by
  cases direction with
  | undirected => exact (EdgeList.Linked.lt_vertexCount_iff h hl).2 hv
  | directed => exact EdgeList.Reaches.lt_vertexCount h hl hv

end Direction

theorem exists_isLeast {s : Set VertexId} (h : s.Nonempty) : ∃ u, IsLeast s u := by
  obtain ⟨u, hu, hleast⟩ := (measure UInt32.toNat).wf.has_min s h
  exact ⟨u, hu, fun w hw => UInt32.not_lt.1 (hleast w hw)⟩

/-- The least ids arrive in the order of the distances from which they come. -/
theorem exists_arrivals (hl : l.Built) (direction : Direction) :
    Nonempty (propagation l direction).Arrivals := by
  have hexists : ∀ v, ∃ u h, IsLeast {u | direction.Connects l u v} u ∧
      (direction.edges l).IsDistance u v h := by
    intro v
    have hself : {u | direction.Connects l u v}.Nonempty := ⟨v, .refl⟩
    obtain ⟨u, hu⟩ := exists_isLeast hself
    obtain ⟨d, hwalk⟩ := Direction.connects_iff_exists_walk.1 hu.1
    obtain ⟨h, -, hdist⟩ := hwalk.exists_isDistance
    exact ⟨u, h, hu, hdist⟩
  choose goal rank hgoal hrank using hexists
  refine ⟨⟨rank, goal, fun {v} hv => ?_, fun _ hfits => (hgoal _).2 hfits, fun {v} _ => ?_⟩⟩
  · have hcount : (direction.edges l).vertexCount = l.vertexCount := Direction.vertexCount_edges hl
    have hfrom : (goal v).toNat < l.vertexCount := (hgoal v).1.lt_vertexCount hl hv
    rw [← hcount] at hfrom ⊢
    exact (hrank v).lt_vertexCount (Direction.built_edges hl) hfrom
  · have hdist := hrank v
    generalize rank v = h at hdist ⊢
    cases h with
    | zero =>
      exact .inl (UInt32.le_of_eq hdist.1.eq_of_zero)
    | succ h =>
      obtain ⟨u, hedge, hpred⟩ := hdist.exists_pred
      obtain ⟨e, he, hwrites, hreads⟩ := Direction.exists_passes_of_mem_edges hedge
      -- What is least at `v` is least at `u`, for it comes by way of `u`.
      have hsame : goal u = goal v := by
        have hto : direction.Connects l (goal v) u :=
          Direction.connects_iff_exists_walk.2 ⟨h, hpred.1⟩
        have hfrom : direction.Connects l (goal u) v := .snoc he hwrites hreads (hgoal u).1
        exact UInt32.le_antisymm ((hgoal u).2 hto) ((hgoal v).2 hfrom)
      have hcloser : rank u = h := (hsame ▸ hrank u).unique hpred
      exact .inr ⟨e, he, u, hwrites, hreads, hcloser ▸ Nat.lt_succ_self _,
        UInt32.le_of_eq hsame⟩

/-- **Components converge** within two iterations more than there are vertices, whichever way ids
travel, in either mode and whatever the window size. -/
theorem ids_converge (hl : l.Built) (hg : Adjacency.ofEdgeList l = .ok g) (direction : Direction)
    (hlimit : l.vertexCount + 2 ≤ settings.maxIterations.toNat) :
    ∃ found, solve l direction settings = .ok found ∧ found.report.outcome = .converged ∧
      found.report.iterations.toNat = found.report.rounds.size ∧
      found.report.rounds.size ≤ l.vertexCount + 2 := by
  obtain ⟨A⟩ := exists_arrivals hl direction
  rw [solve, program_eq]
  exact (A.ranked hl exists_start_eq).exists_converged hg hlimit

/-- The least id comes to the others against their order, along a path that ends in a loop. -/
def descent : EdgeList := .ofList [(0, 3), (3, 2), (2, 1), (1, 1)]

theorem ids_converge_descent : ∃ found found',
    solve descent .undirected { maxIterations := 6, selective := true, intervalSize := 3 } =
        .ok found ∧
      found.report.outcome = .converged ∧ found.values = #[0, 0, 0, 0] ∧
      found.report.iterations.toNat = found.report.rounds.size ∧
      found.report.rounds.size ≤ descent.vertexCount + 2 ∧
    solve descent .directed { maxIterations := 6, intervalSize := 1 } = .ok found' ∧
      found'.report.outcome = .converged ∧ found'.values = #[0, 0, 0, 0] ∧
      found'.report.iterations.toNat = found'.report.rounds.size ∧
      found'.report.rounds.size ≤ descent.vertexCount + 2 := by
  have hrun : (solve descent .undirected
      { maxIterations := 6, selective := true, intervalSize := 3 }).toOption.any
        (·.values == #[0, 0, 0, 0]) = true := by
    decide +kernel
  have hrun' : (solve descent .directed { maxIterations := 6, intervalSize := 1 }).toOption.any
      (·.values == #[0, 0, 0, 0]) = true := by
    decide +kernel
  have hl : descent.Built := .ofList _
  have hg : Adjacency.ofEdgeList descent = .ok descent.graph := rfl
  have hlimit : descent.vertexCount + 2 ≤
      ({ maxIterations := 6, selective := true, intervalSize := 3 } :
        Settings).maxIterations.toNat := by decide
  have hlimit' : descent.vertexCount + 2 ≤
      ({ maxIterations := 6, intervalSize := 1 } : Settings).maxIterations.toNat := by decide
  obtain ⟨found, h, hconverged, hiterations, hrounds⟩ := ids_converge hl hg .undirected hlimit
  obtain ⟨found', h', hconverged', hiterations', hrounds'⟩ := ids_converge hl hg .directed hlimit'
  rw [h] at hrun
  rw [h'] at hrun'
  exact ⟨found, found', h, hconverged, beq_iff_eq.1 hrun, hiterations, hrounds,
    h', hconverged', beq_iff_eq.1 hrun', hiterations', hrounds'⟩

end VertexSweep.Components
