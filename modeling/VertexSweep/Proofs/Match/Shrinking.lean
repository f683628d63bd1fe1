import VertexSweep.Proofs.Match.Greatest
import VertexSweep.Proofs.Sweep.Ceiling

/-!
# Simulations that were cut short

The table that a run leaves encloses every simulation however few iterations it was given, as long
as the vertices were seeded; what more iterations do is to make it smaller (`simulations_le_solve`).
That holds in the midst of a sweep too, when a vertex checks its candidates against those that
others have left by then: a candidate goes only if it is not covered (`Prunes`), and none comes back
(`Refining.shrinks`).
-/

namespace VertexSweep.Simulation

variable {P : Problem} {settings : Settings} {t : Candidates} {s : Stage Matching Label Label}
  {rounds : Array RoundSummary} {g : Adjacency}

/-- The program looks at the number of the iteration, but not at any setting. -/
theorem ignoresCeiling_program : P.program.IgnoresCeiling := fun _ _ _ _ _ => rfl

/-! ## Refinement within a relation -/

/-- While vertices are refined the table stays within a relation that contains it. -/
private def within (P : Problem) (settings : Settings) (t : Candidates)
    (R : VertexId → PatternId → Prop) :
    RunInvariant P.program settings P.graph fun _ => False where
  between rounds s :=
    Refining P settings t rounds.size 0 (begun P rounds.size s) ∧ s.state.table.relation ≤ R
  during rounds k s := Refining P settings t rounds.size k s ∧ s.state.table.relation ≤ R
  begins _ h := ⟨h.1, relation_begun.trans_le h.2⟩
  entersWindow _ h := h
  leavesWindow _ h := h
  visits {rounds k s} hround hk hs h := by
    have hceiling : settings.maxIterations.toNat < 4294967296 := settings.maxIterations.toNat_lt
    refine visit_ofNat (D := fun k s => Refining P settings t rounds.size k s ∧
      s.state.table.relation ≤ R) hk h fun v hv ⟨hrefining, hle⟩ => ?_
    have hvisit : Yields (s.visit P.program settings P.graph v) (fun _ => False) _ :=
      hrefining.visit hs (hround.trans hceiling) hv
    have hshrinks : Yields (s.visit P.program settings P.graph v) (fun _ => False) _ :=
      hrefining.shrinks hs (hround.trans hceiling)
    exact (hvisit.and hshrinks).imp fun s' h' => ⟨h'.1, fun u p hp => hle u p (h'.2 u p hp)⟩
  ends {rounds s} hround hs h hgoes := by
    rw [Problem.vertexCount_graph] at h
    have hceiling : settings.maxIterations.toNat < 4294967296 := settings.maxIterations.toNat_lt
    have hpos : 0 < rounds.size := Nat.lt_of_lt_of_le firstRefining_pos h.1.started
    rw [Array.size_push]
    exact ⟨h.1.next (hs.changed_ne_zero hpos (hround.trans hceiling) hgoes)
      (Nat.lt_of_le_of_lt hround hceiling), h.2⟩

/-- A run that goes on refining leaves a part of the table that it went on from. -/
theorem Refining.relation_le (h : Refining P settings t rounds.size 0 (begun P rounds.size s))
    (hbound : s.tasks.bound = min P.graph.vertexCount maxWord) {left : Nat}
    (hleft : rounds.size + left = settings.maxIterations.toNat) :
    Yields (s.runFrom P.program settings P.graph
        (windows P.graph.vertexCount settings.intervalSize) rounds (UInt32.ofNat rounds.size) left)
      (fun _ => False) fun run => run.state.table.relation ≤ s.state.table.relation := by
  refine (within P settings t s.state.table.relation).runFrom_yields vertexCount_graph_le ?_ ?_
    left hleft hbound ⟨h, le_rfl⟩
  · exact fun _ _ hduring _ => hduring.2
  · exact fun _ hbetween => hbetween.2

/-! ## Runs from an empty table -/

/-- A run that has the time to seed all vertices has a part of what it seeded, and encloses all
simulations. -/
private theorem simulations_le {run : Finished Matching Label Label}
    (h : Ended P (.ofCapacity P.vertexCount P.wanted.size) settings.maxIterations.toNat run)
    (hlimit : 2 ≤ settings.maxIterations) :
    (∀ R, P.IsSimulation R → R ≤ run.state.table.relation) ∧
      ∀ u p, run.state.table.relation u p → u.toNat < P.vertexCount ∧ P.Agrees u p := by
  have hrefined := h.refined (.inr (UInt32.le_iff_toNat_le.1 hlimit))
  refine ⟨fun R hR => ?_, fun u p hp => seeded_ofCapacity.1 (hrefined.le hp)⟩
  exact hrefined.keeps (fun u p hp => hR.covered hp)
    fun u p hp => seeded_ofCapacity.2 ⟨(hR u p hp).1, (hR u p hp).2.1⟩

/-- With more iterations a run from an empty table ends with a part of the table. -/
private theorem relation_le_of_raised {limit : UInt32} {run run' : Finished Matching Label Label}
    (hlimit : 2 ≤ settings.maxIterations) (hraised : settings.maxIterations ≤ limit)
    (hrun : P.program.run settings { table := .ofCapacity P.vertexCount P.wanted.size }
      (.ofAdjacency P.graph) = .ok run)
    (hrun' : P.program.run { settings with maxIterations := limit }
      { table := .ofCapacity P.vertexCount P.wanted.size } (.ofAdjacency P.graph) = .ok run') :
    run'.state.table.relation ≤ run.state.table.relation := by
  have hseeds : 2 ≤ settings.maxIterations.toNat := UInt32.le_iff_toNat_le.1 hlimit
  have hle : settings.maxIterations.toNat ≤ limit.toNat := UInt32.le_iff_toNat_le.1 hraised
  have hempty : (Candidates.ofCapacity P.vertexCount P.wanted.size).WF := .ofCapacity ..
  rw [ofAdjacency_graph] at hrun hrun'
  rcases (phases P { settings with maxIterations := limit } hempty
      fun _ => ⟨Array.size_replicate, rfl⟩).run_raised ignoresCeiling_program vertexCount_graph_le
      hraised (phases_start hempty _ Array.size_replicate Array.size_replicate) with
    hsame | ⟨rounds, s, hsize, hbound, hphase, hstopped, hgoes⟩
  · rw [hrun, hrun'] at hsame
    cases hsame
    exact le_rfl
  · rw [hrun] at hstopped
    cases hstopped
    rw [hrun'] at hgoes
    have hrefining := Phase.refines hphase (by rwa [firstRefining_of_isOpen rfl, hsize])
    refine (hrefining.relation_le hbound ?_).of_eq_ok hgoes.symm
    rw [hsize]
    exact Nat.add_sub_cancel' hle

/-- **Refinement never drops a true match, at any ceiling.** A run from an empty table that may
carry out two iterations or more succeeds; however it ends, the table contains every simulation and
only pairs of equal labels, and under a higher ceiling it ends with a part of that table. -/
theorem simulations_le_solve (hlimit : 2 ≤ settings.maxIterations)
    (hg : Adjacency.ofEdgeList P.list = .ok g) :
    ∃ found, solve P.list P.pattern P.labels settings = .ok found ∧
      (∀ R, P.IsSimulation R → R ≤ found.table.relation) ∧
      (∀ u p, found.table.relation u p → u.toNat < P.vertexCount ∧ P.Agrees u p) ∧
      ∀ limit, settings.maxIterations ≤ limit → ∃ found',
        solve P.list P.pattern P.labels { settings with maxIterations := limit } = .ok found' ∧
          found'.table.relation ≤ found.table.relation := by
  have hempty : (Candidates.ofCapacity P.vertexCount P.wanted.size).WF := .ofCapacity ..
  obtain ⟨run, hrun, hended⟩ := run_ofAdjacency (P := P) settings hempty
    fun _ => ⟨Array.size_replicate, rfl⟩
  obtain ⟨hkeeps, hagrees⟩ := simulations_le hended hlimit
  refine ⟨.ofRun run, solve_eq_ok hg hrun, hkeeps, hagrees, fun limit hraised => ?_⟩
  obtain ⟨run', hrun', -⟩ := run_ofAdjacency (P := P) { settings with maxIterations := limit }
    hempty fun _ => ⟨Array.size_replicate, rfl⟩
  exact ⟨.ofRun run', solve_eq_ok hg hrun', relation_le_of_raised hlimit hraised hrun hrun'⟩

/-- One vertex is left that has lost its cover but not its candidate when the run is cut short. -/
theorem simulations_le_solve_twoCycle : ∃ found found',
    solve twoCycle.list twoCycle.pattern twoCycle.labels { maxIterations := 3 } = .ok found ∧
      found.report.outcome = .iterationLimit ∧
      found.table.liveSets = [(0, [0]), (1, [1]), (2, [0])] ∧
      (∀ R, twoCycle.IsSimulation R → R ≤ found.table.relation) ∧
      (∀ u p, found.table.relation u p → u.toNat < twoCycle.vertexCount ∧ twoCycle.Agrees u p) ∧
      solve twoCycle.list twoCycle.pattern twoCycle.labels { maxIterations := 4 } = .ok found' ∧
      found'.table.liveSets = [(0, [0]), (1, [1])] ∧
      found'.table.relation ≤ found.table.relation := by
  obtain ⟨_, h, hfacts⟩ := Yields.exists_ok_of_any
    (x := solve twoCycle.list twoCycle.pattern twoCycle.labels { maxIterations := 3 })
    (f := fun found => found.report.outcome == .iterationLimit &&
      found.table.liveSets == [(0, [0]), (1, [1]), (2, [0])]) (by decide +kernel)
  obtain ⟨_, h', hfacts'⟩ := Yields.exists_ok_of_any
    (x := solve twoCycle.list twoCycle.pattern twoCycle.labels { maxIterations := 4 })
    (f := (·.table.liveSets == [(0, [0]), (1, [1])])) (by decide +kernel)
  rw [Bool.and_eq_true, beq_iff_eq, beq_iff_eq] at hfacts
  obtain ⟨found, hfound, hkeeps, hagrees, hraised⟩ :=
    @simulations_le_solve twoCycle { maxIterations := 3 } twoCycle.graph (by decide) rfl
  obtain ⟨found', hfound', hle⟩ := hraised 4 (by decide)
  rw [h] at hfound
  rw [h'] at hfound'
  cases hfound
  cases hfound'
  exact ⟨_, _, h, hfacts.1, hfacts.2, hkeeps, hagrees, h', beq_iff_eq.1 hfacts', hle⟩

end VertexSweep.Simulation
