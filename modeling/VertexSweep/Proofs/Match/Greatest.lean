import Mathlib.Order.Bounds.Basic
import VertexSweep.Proofs.Match.Ending

/-!
# Greatest simulations

What a converged run leaves in the table is a greatest fixpoint, whatever the settings of the run:
from an empty table the greatest simulation (`isGreatest_solve`), and from a given table, which is
sealed first, the greatest relation within the table that covers its own pairs
(`isGreatest_refineAgain`). A table that was left open is refined only if seeding has something to
do; otherwise a run converges with whatever uncovered candidates the table had
(`covered_iff_of_converged`, `uncovered_of_seededTable`).
-/

namespace VertexSweep.Simulation

variable {P : Problem} {settings : Settings} {t : Candidates} {found : Found}

/-! ## From an empty table -/

private theorem solve_ok (h : solve P.list P.pattern P.labels settings = .ok found) :
    ∃ run, found = .ofRun run ∧
      Ended P (.ofCapacity P.vertexCount P.wanted.size) settings.maxIterations.toNat run := by
  cases hg : Adjacency.ofEdgeList P.list with
  | error fault =>
    simp only [solve, DataGraph.ofEdgeList, hg] at h
    cases h
  | ok g =>
    obtain ⟨run, hrun, hended⟩ := solve_yields settings hg
    rw [hrun] at h
    cases h
    exact ⟨run, rfl, hended⟩

theorem seeded_ofCapacity {u : VertexId} {p : PatternId} :
    Seeded P (.ofCapacity P.vertexCount P.wanted.size) u p ↔
      u.toNat < P.vertexCount ∧ P.Agrees u p := by
  have hlive : (Candidates.ofCapacity P.vertexCount P.wanted.size).isLive u = false :=
    (Candidates.isLive_eq_false_iff (.ofCapacity ..)).2 fun _ => Candidates.contains_ofCapacity
  have hopen : (Candidates.ofCapacity P.vertexCount P.wanted.size).isSealed = false := rfl
  simp [Seeded, SeededBelow, hlive, hopen, Candidates.relation]

private theorem isGreatest_relation_solve {run : Finished Matching Label Label}
    (h : Ended P (.ofCapacity P.vertexCount P.wanted.size) settings.maxIterations.toNat run)
    (hconverged : run.report.outcome = .converged) :
    IsGreatest {R | P.IsSimulation R} run.state.table.relation := by
  have hrefined := h.refined (.inl hconverged)
  refine ⟨fun u p hp => ?_, fun R hR u p hp => ?_⟩
  · have hseeded := hrefined.le hp
    obtain ⟨hu, hagrees⟩ := seeded_ofCapacity.1 hseeded
    have hbusy : ¬ Idle P (.ofCapacity P.vertexCount P.wanted.size) := fun hidle => by
      have hnone := (seeded_of_idle hidle).1 hseeded
      simp [Candidates.relation] at hnone
    refine ⟨hu, hagrees, fun q hq => ?_⟩
    obtain ⟨v, hedge, -, hv⟩ := h.covered hconverged hbusy hu hp q hq
    exact ⟨v, hedge, hv⟩
  · exact hrefined.keeps (fun v q hq => hR.covered hq)
      (fun v q hq => seeded_ofCapacity.2 ⟨(hR v q hq).1, (hR v q hq).2.1⟩) u p hp

/-- **A converged run from an empty table has found the greatest simulation.** So the matches do
not depend on the settings. -/
theorem isGreatest_solve (h : solve P.list P.pattern P.labels settings = .ok found)
    (hconverged : found.report.outcome = .converged) :
    IsGreatest {R | P.IsSimulation R} found.table.relation ∧
      ∀ {settings' : Settings} {found' : Found},
        solve P.list P.pattern P.labels settings' = .ok found' →
        found'.report.outcome = .converged → found'.table.liveSets = found.table.liveSets := by
  obtain ⟨run, rfl, hended⟩ := solve_ok h
  have hgreatest := isGreatest_relation_solve hended hconverged
  refine ⟨hgreatest, fun {settings' found'} h' hconverged' => ?_⟩
  obtain ⟨run', rfl, hended'⟩ := solve_ok h'
  have hsame := (isGreatest_relation_solve hended' hconverged').unique hgreatest
  refine Candidates.liveSets_congr (hended'.refined (.inl hconverged')).wf
    (hended.refined (.inl hconverged)).wf fun u p => ?_
  exact iff_of_eq (congrFun (congrFun hsame u) p)

theorem isGreatest_solve_twoCycle : ∃ found found',
    solve twoCycle.list twoCycle.pattern twoCycle.labels { selective := true, intervalSize := 1 } =
        .ok found ∧
      found.report.outcome = .converged ∧
      solve twoCycle.list twoCycle.pattern twoCycle.labels {} = .ok found' ∧
      found'.report.outcome = .converged ∧
      IsGreatest {R | twoCycle.IsSimulation R} found.table.relation ∧
      found'.table.liveSets = found.table.liveSets := by
  obtain ⟨found, h, hconverged⟩ := Yields.exists_ok_of_any
    (x := solve twoCycle.list twoCycle.pattern twoCycle.labels
      { selective := true, intervalSize := 1 })
    (f := (·.report.outcome == .converged)) (by decide +kernel)
  obtain ⟨found', h', hconverged'⟩ := Yields.exists_ok_of_any
    (x := solve twoCycle.list twoCycle.pattern twoCycle.labels {})
    (f := (·.report.outcome == .converged)) (by decide +kernel)
  rw [beq_iff_eq] at hconverged hconverged'
  obtain ⟨hgreatest, hsame⟩ := isGreatest_solve h hconverged
  exact ⟨found, found', h, hconverged, h', hconverged', hgreatest, hsame h' hconverged'⟩

/-! ## From a given table -/

theorem refineAgain_ok (ht : t.WF)
    (h : refineAgain P.list P.pattern t P.labels settings = .ok found) :
    ∃ run, found = .ofRun run ∧ Ended P t.sealed settings.maxIterations.toNat run := by
  cases hg : Adjacency.ofEdgeList P.list with
  | error fault =>
    simp only [refineAgain, VertexProgram.runOn, DataGraph.ofEdgeList, hg] at h
    cases h
  | ok g =>
    obtain ⟨run, hrun, hended⟩ := refineAgain_yields settings ht hg
    rw [hrun] at h
    cases h
    exact ⟨run, rfl, hended⟩

/-- **A converged refinement of a table has found the greatest relation within it that covers its
own pairs**, on the vertices of the graph; what the table holds for other ids stays. -/
theorem isGreatest_refineAgain (ht : t.Built)
    (h : refineAgain P.list P.pattern t P.labels settings = .ok found)
    (hconverged : found.report.outcome = .converged) :
    IsGreatest {S : VertexId → PatternId → Prop | ∀ u p, S u p →
        u.toNat < P.vertexCount ∧ t.relation u p ∧ P.Covered S u p}
      (fun u p => u.toNat < P.vertexCount ∧ found.table.relation u p) ∧
      ∀ u p, P.vertexCount ≤ u.toNat → found.table.contains u p = t.contains u p := by
  obtain ⟨run, rfl, hended⟩ := refineAgain_ok ht.wf h
  have hrefined := hended.refined (.inl hconverged)
  have hseeded : ∀ {u p}, Seeded P t.sealed u p ↔ t.relation u p := seeded_of_isSealed rfl
  refine ⟨⟨fun u p hp => ⟨hp.1, hseeded.1 (hrefined.le hp.2), ?_⟩, fun S hS u p hp => ?_⟩,
    fun u p hu => ?_⟩
  · have hcovered := hended.covered hconverged (not_idle_of_isSealed rfl) hp.1 hp.2
    refine hcovered.congr fun v q hedge hv => ?_
    exact ⟨(Problem.isVertex_of_edge hedge).2, hv⟩
  · exact ⟨(hS u p hp).1, hrefined.keeps (fun v q hq => (hS v q hq).2.2)
      (fun v q hq => hseeded.2 (hS v q hq).2.1) u p hp⟩
  · exact Bool.eq_iff_iff.2 ⟨fun hp => hseeded.1 (hrefined.le hp), hrefined.outside hu⟩

/-- A table for more ids than `twoCycle` has vertices, with one pair that is not covered and one
on a stray id. -/
def strayTable : Candidates :=
  (((((Candidates.ofCapacity 6 2).add 0 0).2.add 1 1).2.add 2 0).2.add 5 1).2

theorem built_strayTable : strayTable.Built :=
  .add _ _ (.add _ _ (.add _ _ (.add _ _ (.ofCapacity 6 2))))

theorem isGreatest_refineAgain_strayTable : ∃ found,
    refineAgain twoCycle.list twoCycle.pattern strayTable twoCycle.labels { selective := true } =
        .ok found ∧
      found.report.outcome = .converged ∧
      found.table.liveSets = [(0, [0]), (1, [1]), (5, [1])] ∧
      IsGreatest {S : VertexId → PatternId → Prop | ∀ u p, S u p →
          u.toNat < twoCycle.vertexCount ∧ strayTable.relation u p ∧ twoCycle.Covered S u p}
        (fun u p => u.toNat < twoCycle.vertexCount ∧ found.table.relation u p) ∧
      ∀ u p, twoCycle.vertexCount ≤ u.toNat →
        found.table.contains u p = strayTable.contains u p := by
  obtain ⟨found, h, hfacts⟩ := Yields.exists_ok_of_any
    (x := refineAgain twoCycle.list twoCycle.pattern strayTable twoCycle.labels
      { selective := true })
    (f := fun found => found.report.outcome == .converged &&
      found.table.liveSets == [(0, [0]), (1, [1]), (5, [1])]) (by decide +kernel)
  rw [Bool.and_eq_true, beq_iff_eq, beq_iff_eq] at hfacts
  exact ⟨found, h, hfacts.1, hfacts.2, isGreatest_refineAgain built_strayTable h hfacts.1⟩

/-! ## From a table that may be open -/

/-- **When all candidates are covered after convergence.** A run from a table with the dimensions of
graph and pattern succeeds; if it converges, all candidates that are left are covered, except if
the table was open, seeding had nothing to do, and the table had uncovered candidates to begin
with. -/
theorem covered_iff_of_converged (settings : Settings) (ht : t.Built)
    (hcapacity : t.capacity = P.vertexCount) (hwidth : t.width = P.pattern.vertexCount)
    (values slots : Array Label) (hvalues : values.size = P.vertexCount)
    (hslots : slots.size = P.list.edges.size) :
    ∃ run, (program P.pattern P.labels).run settings { table := t } ⟨P.graph, values, slots⟩ =
        .ok run ∧
      (run.report.outcome = .converged →
        ((∀ u p, run.state.table.relation u p → P.Covered run.state.table.relation u p) ↔
          ¬ Idle P t ∨ ∀ u p, t.relation u p → P.Covered t.relation u p)) := by
  obtain ⟨run, hrun, hended⟩ := Yields.exists_ok (run_yields settings ht.wf
    (fun _ => ⟨hcapacity, hwidth.trans Problem.vertexCount_pattern⟩) values slots hvalues hslots)
  refine ⟨run, hrun, fun hconverged => ?_⟩
  have hrefined := hended.refined (.inl hconverged)
  by_cases hidle : Idle P t
  · -- The table is as it was.
    have hsame : run.state.table.relation = t.relation := by
      funext u p
      refine propext ⟨fun hp => (seeded_of_idle hidle).1 (hrefined.le hp), fun hp => ?_⟩
      exact hrefined.pruned_eq_zero_iff.1 (hended.idle hconverged hidle) u p (.inl hp)
    rw [hsame]
    simp only [hidle, not_true_eq_false, false_or]
  · refine iff_of_true (fun u p hp => ?_) (.inl hidle)
    have hu : u.toNat < P.vertexCount := by
      rcases hrefined.le hp with hold | ⟨-, -, hu, -⟩
      · exact hcapacity ▸ Candidates.lt_capacity hold
      · exact hu
    exact hended.covered hconverged hidle hu hp

/-- An open table for `twoCycle` in which one vertex has a candidate already. -/
def partialTable : Candidates := ((Candidates.ofCapacity 4 2).add 2 0).2

theorem covered_of_partialTable : ∃ run,
    (program twoCycle.pattern twoCycle.labels).run {} { table := partialTable }
        ⟨twoCycle.graph, Array.replicate 4 0, Array.replicate 3 0⟩ = .ok run ∧
      run.report.outcome = .converged ∧
      ∀ u p, run.state.table.relation u p → twoCycle.Covered run.state.table.relation u p := by
  obtain ⟨run, hrun, hcovered⟩ := covered_iff_of_converged (P := twoCycle) (t := partialTable) {}
    (.add _ _ (.ofCapacity 4 2)) rfl rfl (Array.replicate 4 0) (Array.replicate 3 0) rfl rfl
  obtain ⟨_, hsame, hconverged⟩ := Yields.exists_ok_of_any
    (x := (program twoCycle.pattern twoCycle.labels).run {} { table := partialTable }
      ⟨twoCycle.graph, Array.replicate 4 0, Array.replicate 3 0⟩)
    (f := (·.report.outcome == .converged)) (by decide +kernel)
  rw [hrun] at hsame
  cases hsame
  rw [beq_iff_eq] at hconverged
  -- Vertex 0 has no candidate yet, though the first pattern vertex has its label.
  have hbusy : ¬ Idle twoCycle partialTable := by
    rintro ⟨-, hall⟩
    rcases hall 0 (by decide) with hlive | hnone
    · exact absurd hlive (by decide +kernel)
    · exact hnone 0 rfl
  exact ⟨run, hrun, hconverged, (hcovered hconverged).2 (.inl hbusy)⟩

/-- One vertex and no edge, for a pattern that wants one. -/
def loneVertex : Problem where
  list := .ofVertexCount 1
  labels _ := 1
  arcs := #[(0, 1)]
  wanted := #[1, 2]
  pattern := ⟨#[0, 1, 1], #[1], #[1, 2]⟩
  listBuilt := .ofVertexCount 1
  vertexCount_le := by decide
  patternBuilt := by rfl
  size_arcs_le := by decide

/-- An open table for `loneVertex` in which the vertex has its candidate already. -/
def seededTable : Candidates := ((Candidates.ofCapacity 1 2).add 0 0).2

/-- If seeding has nothing to do, a run converges with a candidate that is not covered. -/
theorem uncovered_of_seededTable : seededTable.Built ∧
    seededTable.capacity = loneVertex.vertexCount ∧
    seededTable.width = loneVertex.pattern.vertexCount ∧
    ∃ run, (program loneVertex.pattern loneVertex.labels).run {} { table := seededTable }
        (.ofAdjacency loneVertex.graph) = .ok run ∧
      run.report.outcome = .converged ∧ run.state.table.relation 0 0 ∧
      ¬ loneVertex.Covered run.state.table.relation 0 0 := by
  obtain ⟨run, hrun, hfacts⟩ := Yields.exists_ok_of_any
    (x := (program loneVertex.pattern loneVertex.labels).run {} { table := seededTable }
      (.ofAdjacency loneVertex.graph))
    (f := fun run => run.report.outcome == .converged && run.state.table.contains 0 0)
    (by decide +kernel)
  rw [Bool.and_eq_true, beq_iff_eq] at hfacts
  refine ⟨.add _ _ (.ofCapacity 1 2), rfl, rfl, run, hrun, hfacts.1, hfacts.2, fun hcovered => ?_⟩
  obtain ⟨v, hedge, -⟩ := hcovered 1 (by simp [loneVertex])
  exact absurd hedge (by simp [loneVertex, EdgeList.ofVertexCount])

end VertexSweep.Simulation
