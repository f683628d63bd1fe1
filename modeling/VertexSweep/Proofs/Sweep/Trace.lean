import VertexSweep.Proofs.Sweep.Ceiling
import VertexSweep.Relax.ShortestPath

/-!
# Stopped runs are cut short, not led astray

The trace of a run is the list of its stages between iterations: the one it starts from, and then
the one that every iteration leaves (`Stage.trace`). A run that ends has a stage in it for every
round and one more, and the last of them is where it ended (`VertexProgram.getLast?_trace`).

The run of a program that does not look at the ceiling is, under a lower ceiling, the first part of
what it is under a higher one: it is the same run, or the higher one passed through the stage at
which the lower one was stopped (`VertexProgram.run_extends`).
-/

namespace VertexSweep

variable {σ V E : Type}

theorem Stage.outcome?_ne_iterationLimit {s : Stage σ V E} {settings : Settings}
    {round : RoundSummary} : s.outcome? settings round ≠ some .iterationLimit := by
  intro h
  unfold outcome? at h
  repeat' split at h
  all_goals cases h

variable [Inhabited V] {program : VertexProgram σ V E} {settings : Settings} {g : Adjacency}

namespace Stage

/-- The stages between the iterations of a run, of which there are at most `left` to come. -/
def trace (program : VertexProgram σ V E) (settings : Settings) (g : Adjacency) (ws : List Window)
    (s : Stage σ V E) (iteration : UInt32) : (left : Nat) → List (Stage σ V E)
  | 0 => [s]
  | left + 1 =>
    s :: match s.iterate program settings g ws iteration with
      | .error _ => []
      | .ok (round, s) =>
        match s.outcome? settings round with
        | some _ => [s]
        | none => trace program settings g ws s (iteration + 1) left

variable {ws : List Window} {s s' : Stage σ V E} {rounds : Array RoundSummary}
  {round : RoundSummary} {left : Nat} {run : Finished σ V E}

theorem trace_of_some {outcome : Outcome} {iteration : UInt32}
    (h : s.iterate program settings g ws iteration = .ok (round, s'))
    (hend : s'.outcome? settings round = some outcome) :
    s.trace program settings g ws iteration (left + 1) = [s, s'] := by
  unfold trace
  simp only [h, hend]

theorem trace_of_none
    (h : s.iterate program settings g ws (UInt32.ofNat rounds.size) = .ok (round, s'))
    (hend : s'.outcome? settings round = none) :
    s.trace program settings g ws (UInt32.ofNat rounds.size) (left + 1) =
      s :: s'.trace program settings g ws (UInt32.ofNat (rounds.push round).size) left := by
  rw [ofNat_size_push]
  conv => lhs; unfold trace
  simp only [h, hend]

/-- A run that ended had carried out an iteration for each of its later stages, and it ended at
the last one. -/
theorem exists_getLast?_trace (rounds : Array RoundSummary)
    (h : s.runFrom program settings g ws rounds (UInt32.ofNat rounds.size) left = .ok run) :
    (s.trace program settings g ws (UInt32.ofNat rounds.size) left).length + rounds.size =
        run.report.rounds.size + 1 ∧
      ∃ last, (s.trace program settings g ws (UInt32.ofNat rounds.size) left).getLast? =
        some last ∧ run = last.finish g run.report.outcome run.report.rounds := by
  induction left generalizing s rounds with
  | zero =>
    cases h
    exact ⟨Nat.add_comm .., s, rfl, rfl⟩
  | succ left ih =>
    cases hres : s.iterate program settings g ws (UInt32.ofNat rounds.size) with
    | error aborted =>
      rw [runFrom_of_error hres] at h
      cases h
    | ok out =>
      obtain ⟨round, s'⟩ := out
      cases hend : s'.outcome? settings round with
      | some outcome =>
        rw [runFrom_of_some hres hend] at h
        rw [trace_of_some hres hend]
        cases h
        refine ⟨?_, s', rfl, rfl⟩
        show 2 + rounds.size = (rounds.push round).size + 1
        rw [Array.size_push]
        omega
      | none =>
        rw [runFrom_of_none hres hend] at h
        obtain ⟨hlength, last, hlast, hrun⟩ := ih _ h
        have hpushed : (rounds.push round).size = rounds.size + 1 := Array.size_push ..
        rw [trace_of_none hres hend]
        refine ⟨?_, last, ?_, hrun⟩
        · rw [List.length_cons]
          omega
        · rw [List.getLast?_cons, hlast]
          rfl

/-- What a run reports in the end begins with what it had reported before. -/
theorem rounds_isPrefix
    (h : s.runFrom program settings g ws rounds (UInt32.ofNat rounds.size) left = .ok run) :
    rounds.toList <+: run.report.rounds.toList := by
  induction left generalizing s rounds with
  | zero =>
    cases h
    exact List.prefix_rfl
  | succ left ih =>
    cases hres : s.iterate program settings g ws (UInt32.ofNat rounds.size) with
    | error aborted =>
      rw [runFrom_of_error hres] at h
      cases h
    | ok out =>
      obtain ⟨round, s'⟩ := out
      have hpush : rounds.toList <+: (rounds.push round).toList := by simp
      cases hend : s'.outcome? settings round with
      | some outcome =>
        rw [runFrom_of_some hres hend] at h
        cases h
        exact hpush
      | none =>
        rw [runFrom_of_none hres hend] at h
        exact hpush.trans (ih h)

end Stage

/-- The longer run `run'`, whose stages are listed, extends the run `run` that may carry out
`ceiling` iterations: it has the same first rounds, it is the same if `run` was not stopped, and
otherwise it passed through the stage at which `run` was stopped. -/
structure Finished.Extends (run' run : Finished σ V E) (stages : List (Stage σ V E))
    (ceiling : Nat) : Prop where
  rounds : run.report.rounds.toList <+: run'.report.rounds.toList
  same : run.report.outcome ≠ .iterationLimit → run' = run
  stopped : run.report.outcome = .iterationLimit → run.report.rounds.size = ceiling ∧
    ∃ s, stages[ceiling]? = some s ∧ run.state = s.state ∧ run.graph.values = s.values ∧
      run.graph.slots = s.slots

/-- A run that ends when it may carry out `extra` more iterations extends the run that may not. -/
theorem Stage.runFrom_extends {ws : List Window} {run' : Finished σ V E} {extra : Nat} (left : Nat)
    {s : Stage σ V E} (rounds : Array RoundSummary)
    (h : s.runFrom program settings g ws rounds (UInt32.ofNat rounds.size) (left + extra) =
      .ok run') :
    ∃ run, s.runFrom program settings g ws rounds (UInt32.ofNat rounds.size) left = .ok run ∧
      run.report.rounds.toList <+: run'.report.rounds.toList ∧
      (run.report.outcome ≠ .iterationLimit → run' = run) ∧
      (run.report.outcome = .iterationLimit → run.report.rounds.size = rounds.size + left ∧
        ∃ stop, (s.trace program settings g ws (UInt32.ofNat rounds.size) (left + extra))[left]? =
          some stop ∧ run = stop.finish g .iterationLimit run.report.rounds) := by
  induction left generalizing s rounds with
  | zero =>
    refine ⟨_, rfl, rounds_isPrefix h, fun hne => absurd rfl hne, fun _ => ⟨rfl, s, ?_, rfl⟩⟩
    cases 0 + extra <;> rfl
  | succ left ih =>
    rw [Nat.succ_add] at h ⊢
    cases hres : s.iterate program settings g ws (UInt32.ofNat rounds.size) with
    | error aborted =>
      rw [runFrom_of_error hres] at h
      cases h
    | ok out =>
      obtain ⟨round, s'⟩ := out
      cases hend : s'.outcome? settings round with
      | some outcome =>
        rw [runFrom_of_some hres hend] at h ⊢
        cases h
        refine ⟨_, rfl, List.prefix_rfl, fun _ => rfl, fun hlimit => ?_⟩
        -- No iteration ends a run for the ceiling; that happens when none are left.
        have hlimit : outcome = .iterationLimit := hlimit
        rw [hlimit] at hend
        exact absurd hend outcome?_ne_iterationLimit
      | none =>
        rw [runFrom_of_none hres hend] at h ⊢
        obtain ⟨run, hrun, hrounds, hsame, hstopped⟩ := ih _ h
        refine ⟨run, hrun, hrounds, hsame, fun hlimit => ?_⟩
        obtain ⟨hsize, stop, hstop, heq⟩ := hstopped hlimit
        refine ⟨?_, stop, ?_, heq⟩
        · rw [hsize, Array.size_push]
          omega
        · rw [trace_of_none hres hend]
          exact hstop

namespace VertexProgram

/-- The stages of a run between its iterations. -/
def trace (program : VertexProgram σ V E) (settings : Settings) (state : σ)
    (graph : DataGraph V E) : List (Stage σ V E) :=
  match graph with
  | ⟨g, values, slots⟩ =>
    Stage.trace program settings g (windows g.vertexCount settings.intervalSize)
      { state, values, slots, tasks := (Tasks.ofVertexCount g.vertexCount).addAll } 0
      settings.maxIterations.toNat

variable {state : σ} {graph : DataGraph V E} {run run' : Finished σ V E}

/-- The last stage of a run that ended is where it ended. -/
theorem getLast?_trace (h : program.run settings state graph = .ok run) :
    (program.trace settings state graph).length = run.report.rounds.size + 1 ∧
      ∃ last, (program.trace settings state graph).getLast? = some last ∧
        run = last.finish graph.adjacency run.report.outcome run.report.rounds :=
  Stage.exists_getLast?_trace #[] h

/-- **Raising the ceiling only extends a run** of a program that does not look at it. -/
theorem run_extends (hignores : program.IgnoresCeiling) {limit : UInt32}
    (hlimit : settings.maxIterations ≤ limit)
    (h : program.run { settings with maxIterations := limit } state graph = .ok run') :
    ∃ run, program.run settings state graph = .ok run ∧
      run'.Extends run (program.trace { settings with maxIterations := limit } state graph)
        settings.maxIterations.toNat := by
  obtain ⟨extra, hextra⟩ := Nat.exists_eq_add_of_le (UInt32.le_iff_toNat_le.1 hlimit)
  obtain ⟨g, values, slots⟩ := graph
  simp only [VertexProgram.run, hextra] at h
  obtain ⟨run, hrun, hrounds, hsame, hstopped⟩ :=
    Stage.runFrom_extends settings.maxIterations.toNat #[] h
  refine ⟨run, hignores.runFrom.symm.trans hrun, hrounds, hsame, fun houtcome => ?_⟩
  obtain ⟨hsize, stop, hstop, heq⟩ := hstopped houtcome
  refine ⟨hsize.trans (Nat.zero_add _), stop, ?_, ?_⟩
  · simp only [VertexProgram.trace, hextra]
    exact hstop
  · rw [heq]
    exact ⟨rfl, rfl, rfl⟩

/-- A path whose distances settle one vertex in each iteration. -/
def descent : Adjacency := .ofEdges 4 #[(3, 2), (2, 1), (1, 0)]

theorem run_extends_descent : (ShortestPath.program 3).IgnoresCeiling ∧ (2 : UInt32) ≤ 9 ∧
    ∃ run run',
      (ShortestPath.program 3).run { maxIterations := 2 } () (.ofAdjacency descent) = .ok run ∧
      (ShortestPath.program 3).run { maxIterations := 9 } () (.ofAdjacency descent) = .ok run' ∧
      run'.report.outcome = .converged ∧ run'.report.rounds.size = 6 ∧
      run.report.outcome = .iterationLimit ∧
      run'.Extends run
        ((ShortestPath.program 3).trace { maxIterations := 9 } () (.ofAdjacency descent)) 2 := by
  have hignores : (ShortestPath.program 3).IgnoresCeiling := fun _ _ _ _ _ => rfl
  have hlimit : (2 : UInt32) ≤ 9 := by decide
  have hlong : ((ShortestPath.program 3).run { maxIterations := 9 } ()
      (.ofAdjacency descent)).toOption.any (fun run =>
        run.report.outcome == .converged && run.report.rounds.size == 6) = true := by
    decide +kernel
  have hshort : ((ShortestPath.program 3).run { maxIterations := 2 } ()
      (.ofAdjacency descent)).toOption.any (·.report.outcome == .iterationLimit) = true := by
    decide +kernel
  obtain ⟨run', hrun', hend'⟩ := Yields.exists_ok_of_any hlong
  obtain ⟨houtcome', hsize'⟩ : run'.report.outcome = .converged ∧ run'.report.rounds.size = 6 := by
    simpa using hend'
  obtain ⟨run, hrun, hextends⟩ :=
    @run_extends _ _ _ _ (ShortestPath.program 3) { maxIterations := 2 } () _ run' hignores 9
      hlimit hrun'
  obtain ⟨stopped, hstopped, hend⟩ := Yields.exists_ok_of_any hshort
  cases hrun.symm.trans hstopped
  exact ⟨hignores, hlimit, run, run', hrun, hrun', houtcome', hsize', by simpa using hend,
    hextends⟩

end VertexProgram

end VertexSweep
