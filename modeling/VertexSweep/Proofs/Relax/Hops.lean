import VertexSweep.Proofs.Relax.Arrival
import VertexSweep.Proofs.Relax.Distances

/-!
# Distances hop by hop

The rank of a vertex in a run for shortest paths is its distance from the source
(`ShortestPath.exists_arrivals`). So a run that is stopped at its ceiling has found the distances of
all vertices that are near enough, and those of other vertices are not above what it has found
(`distances_at_ceiling`). Distances stay below the vertex count, and with them the number of
iterations that a run needs (`distances_converge`).
-/

namespace VertexSweep.ShortestPath

variable {l : EdgeList} {source v : VertexId} {settings : Settings} {g : Adjacency}

/-- The distances arrive in their own order; vertices that are not reached have nothing to wait
for. -/
theorem exists_arrivals (hl : l.Built) (hn : l.vertexCount ≤ maxWord)
    (hs : source.toNat < l.vertexCount) : ∃ A : (propagation l source).Arrivals,
      ∀ v h, l.IsDistance source v h → A.rank v = h ∧ (A.goal v).toNat = h + 1 := by
  have hexists : ∀ v, ∃ (h : Nat) (c : UInt32), (l.IsDistance source v h ∧ c.toNat = h + 1) ∨
      ((∀ d, ¬ l.Walk source v d) ∧ h = 0 ∧ c = unreached) := by
    intro v
    rcases Classical.em (∃ d, l.Walk source v d) with ⟨d, hwalk⟩ | hnone
    · obtain ⟨h, -, hdist⟩ := hwalk.exists_isDistance
      have hlt := hdist.lt_vertexCount hl hs
      refine ⟨h, UInt32.ofNat (h + 1), .inl ⟨hdist, UInt32.toNat_ofNat_of_lt' ?_⟩⟩
      show h + 1 < 4294967296
      unfold maxWord at hn
      omega
    · exact ⟨0, unreached, .inr ⟨not_exists.1 hnone, rfl, rfl⟩⟩
  choose rank goal hgoal using hexists
  have hreached : ∀ v h, l.IsDistance source v h → rank v = h ∧ (goal v).toNat = h + 1 := by
    intro v h hdist
    rcases hgoal v with ⟨hrank, hcount⟩ | ⟨hnone, -⟩
    · obtain rfl : rank v = h := hrank.unique hdist
      exact ⟨rfl, hcount⟩
    · exact absurd hdist.1 (hnone h)
  refine ⟨⟨rank, goal, fun {v} _ => ?_, fun {v c} _ hfits => ?_, fun {v} _ => ?_⟩, hreached⟩
  · rcases hgoal v with ⟨hrank, -⟩ | ⟨-, hzero, -⟩
    · exact hrank.lt_vertexCount hl hs
    · omega
  · rcases hfits with rfl | ⟨h, hwalk, hcount⟩
    · exact le_unreached
    · rcases hgoal v with ⟨hrank, hleast⟩ | ⟨hnone, -⟩
      · have hle : rank v ≤ h := hrank.2 hwalk
        rw [UInt32.le_iff_toNat_le]
        omega
      · exact absurd hwalk (hnone h)
  · rcases hgoal v with ⟨hrank, hcount⟩ | ⟨-, -, hnone⟩
    · generalize rank v = h at hrank hcount ⊢
      cases h with
      | zero =>
        obtain rfl : v = source := hrank.1.eq_of_zero
        left
        show (if v = v then 1 else unreached) ≤ goal v
        rw [if_pos rfl, UInt32.le_iff_toNat_le, hcount]
        exact Nat.le_refl _
      | succ h =>
        obtain ⟨u, hedge, hdist⟩ := hrank.exists_pred
        obtain ⟨hu, hoffer⟩ := hreached u h hdist
        refine .inr ⟨(u, v), hedge, u, rfl, rfl, hu ▸ Nat.lt_succ_self h, ?_⟩
        have hfurther : (oneFurther (goal u)).toNat ≤ (goal u).toNat + 1 := toNat_oneFurther_le
        show oneFurther (goal u) ≤ goal v
        rw [UInt32.le_iff_toNat_le]
        omega
    · exact .inl (hnone ▸ le_unreached)

theorem solve_eq_ofTurns (hs : source.toNat < l.vertexCount) : solve l source settings =
    Relaxation.solve (Relaxation.ofTurns (start source)
      (propagate .directed oneFurther)) l settings := by
  rw [solve, if_neg (Nat.not_le.2 hs), program_eq]

/-- **What is known at any ceiling.** A run that carries out its first iteration never holds a
number below that of a vertex, and a vertex that is at least two edges closer to the source than the
ceiling allows for has its own. -/
theorem distances_at_ceiling (hl : l.Built) (hn : l.vertexCount ≤ maxWord)
    (hg : Adjacency.ofEdgeList l = .ok g) (hs : source.toNat < l.vertexCount)
    (hpos : 1 ≤ settings.maxIterations.toNat) :
    ∃ found, solve l source settings = .ok found ∧ found.values.size = l.vertexCount ∧
      ∀ v : VertexId, v.toNat < l.vertexCount →
        (∀ hops, l.IsDistance source v hops → hops + 1 ≤ (found.value v).toNat ∧
          (hops + 2 ≤ settings.maxIterations.toNat → (found.value v).toNat = hops + 1)) ∧
        ((∀ hops, ¬ l.Walk source v hops) → found.value v = unreached) := by
  obtain ⟨A, hA⟩ := exists_arrivals hl hn hs
  obtain ⟨run, hrun, hended⟩ := (A.ranked hl (exists_start_eq hl)).exists_ended settings hn hg
  have hsound : (propagation l source).Sound run.numbers := hended.sound (.inr hpos)
  have hcount : l.graph.vertexCount = l.vertexCount := Adjacency.vertexCount_ofEdges
  refine ⟨_, (solve_eq_ofTurns hs).trans hrun, hended.size_values.trans hcount, fun v hv => ?_⟩
  have hfits : run.numbers.value v = unreached ∨
      ∃ h, l.Walk source v h ∧ (run.numbers.value v).toNat = h + 1 := hsound.fits hv
  refine ⟨fun hops hdist => ?_, fun hnone => ?_⟩
  · obtain ⟨rfl, hgoal⟩ := hA v hops hdist
    have hle : A.goal v ≤ run.numbers.value v := A.goal_le hv hfits
    rw [UInt32.le_iff_toNat_le, hgoal] at hle
    refine ⟨hle, fun hlimit => ?_⟩
    have harrived : A.Arrived run.numbers v := hended.resting (hcount ▸ hv) hlimit
    have hvalue : run.numbers.value v = A.goal v := harrived.value_eq hsound hv
    exact hgoal ▸ congrArg UInt32.toNat hvalue
  · exact hfits.resolve_right fun ⟨hops, hwalk, _⟩ => hnone hops hwalk

/-- Two ways to vertex 4, a longer one along the order of ids and a shorter one against it. -/
def detour : EdgeList :=
  .ofList [(0, 1), (1, 2), (2, 3), (3, 4), (0, 6), (6, 5), (5, 4), (4, 4), (7, 0)]

theorem distances_at_ceiling_detour : ∃ found,
    solve detour 0 { maxIterations := 3, selective := true, intervalSize := 3 } = .ok found ∧
      found.report.outcome = .iterationLimit ∧
      found.values = #[1, 2, 3, 4, 5, 3, 2, unreached] ∧
      ∀ v : VertexId, v.toNat < 8 →
        (∀ hops, detour.IsDistance 0 v hops → hops + 1 ≤ (found.value v).toNat ∧
          (hops + 2 ≤ 3 → (found.value v).toNat = hops + 1)) ∧
        ((∀ hops, ¬ detour.Walk 0 v hops) → found.value v = unreached) := by
  have hrun : (solve detour 0
      { maxIterations := 3, selective := true, intervalSize := 3 }).toOption.any (fun found =>
        found.report.outcome == .iterationLimit &&
          found.values == #[1, 2, 3, 4, 5, 3, 2, unreached]) = true := by
    decide +kernel
  have hl : detour.Built := .ofList _
  have hg : Adjacency.ofEdgeList detour = .ok detour.graph := rfl
  have hs : (0 : VertexId).toNat < detour.vertexCount := by decide
  have hpos : 1 ≤ ({ maxIterations := 3, selective := true, intervalSize := 3 } :
      Settings).maxIterations.toNat := by decide
  obtain ⟨found, h, -, hdistances⟩ := distances_at_ceiling hl (by decide) hg hs hpos
  rw [h] at hrun
  obtain ⟨houtcome, hvalues⟩ := Bool.and_eq_true_iff.1 hrun
  exact ⟨found, h, beq_iff_eq.1 houtcome, beq_iff_eq.1 hvalues, hdistances⟩

/-- **Shortest paths converge** within two iterations more than there are vertices, in either mode
and whatever the window size. -/
theorem distances_converge (hl : l.Built) (hg : Adjacency.ofEdgeList l = .ok g)
    (hs : source.toNat < l.vertexCount)
    (hlimit : l.vertexCount + 2 ≤ settings.maxIterations.toNat) :
    ∃ found, solve l source settings = .ok found ∧ found.report.outcome = .converged ∧
      found.report.iterations.toNat = found.report.rounds.size ∧
      found.report.rounds.size ≤ l.vertexCount + 2 := by
  obtain ⟨A, -⟩ := exists_arrivals hl (Relaxation.le_maxWord_of_ceiling hlimit) hs
  rw [solve_eq_ofTurns hs]
  exact (A.ranked hl (exists_start_eq hl)).exists_converged hg hlimit

/-- A path against the order of ids, with a loop at its end. -/
def loopedDescent : EdgeList := .ofList [(3, 2), (2, 1), (1, 0), (0, 0)]

/-- The bound is reached. -/
theorem distances_converge_loopedDescent : ∃ found,
    solve loopedDescent 3 { maxIterations := 6, selective := true, intervalSize := 3 } = .ok found ∧
      found.report.outcome = .converged ∧ found.values = #[4, 3, 2, 1] ∧
      found.report.iterations.toNat = found.report.rounds.size ∧
      found.report.rounds.size = loopedDescent.vertexCount + 2 := by
  have hrun : (solve loopedDescent 3
      { maxIterations := 6, selective := true, intervalSize := 3 }).toOption.any (fun found =>
        found.values == #[4, 3, 2, 1] && found.report.rounds.size == 6) = true := by
    decide +kernel
  have hl : loopedDescent.Built := .ofList _
  have hg : Adjacency.ofEdgeList loopedDescent = .ok loopedDescent.graph := rfl
  have hs : (3 : VertexId).toNat < loopedDescent.vertexCount := by decide
  have hlimit : loopedDescent.vertexCount + 2 ≤
      ({ maxIterations := 6, selective := true, intervalSize := 3 } :
        Settings).maxIterations.toNat := by decide
  obtain ⟨found, h, hconverged, hiterations, -⟩ := distances_converge hl hg hs hlimit
  rw [h] at hrun
  obtain ⟨hvalues, hrounds⟩ := Bool.and_eq_true_iff.1 hrun
  exact ⟨found, h, hconverged, beq_iff_eq.1 hvalues, hiterations, beq_iff_eq.1 hrounds⟩

end VertexSweep.ShortestPath
