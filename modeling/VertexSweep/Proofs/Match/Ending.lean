import VertexSweep.Proofs.Match.Phases

/-!
# How a simulation ends

A run is in one phase after the other (`Phase`). `run_yields` says how it ends: an update never
fails, and when the run converges it is at a fixpoint, unless the table was open and seeding had
nothing to do (`Idle`), in which case the run ends without any refinement.
-/

namespace VertexSweep.Simulation

variable {P : Problem} {settings : Settings} {t : Candidates} {k i : Nat}
  {s : Stage Matching Label Label} {u v : VertexId} {p : PatternId}
  {fails : Aborted Matching Label Label → Prop} {limit : Nat} {rounds : Array RoundSummary}

/-- What holds in iteration `i` when the vertices below `k` have had their turn. -/
inductive Phase (P : Problem) (settings : Settings) (t : Candidates) (i k : Nat)
    (s : Stage Matching Label Label) : Prop where
  | labelling (hi : i = 0) (h : Labelling P settings t k s)
  | seeding (hi : i = 1) (h : Seeding P settings t k s)
  | refining (h : Refining P settings t i k s)

theorem Phase.visit (h : Phase P settings t i v.toNat s) (ht : t.WF) (hs : s.InIteration P.graph i)
    (hi : i < 4294967296) (hv : v.toNat < P.vertexCount) :
    Yields (s.visit P.program settings P.graph v) fails (Phase P settings t i (v.toNat + 1)) := by
  cases h with
  | labelling hzero h =>
    subst hzero
    exact (h.visit hs hv).imp fun _ => .labelling rfl
  | seeding hone h =>
    subst hone
    exact (h.visit ht hs hv).imp fun _ => .seeding rfl
  | refining h => exact (h.visit hs hi hv).imp fun _ => .refining

/-- Nobody ever asks a simulation to end. -/
theorem Phase.unasked (h : Phase P settings t i k s) : s.control.last = none := by
  cases h with
  | labelling _ h => exact h.unasked
  | seeding _ h => exact h.unasked
  | refining h => exact h.unasked

theorem Phase.next (h : Phase P settings t i P.vertexCount s) (ht : t.WF)
    (hshape : t.isSealed = false → t.capacity = P.vertexCount ∧ t.width = P.wanted.size)
    (hs : s.InIteration P.graph i) (hi : i + 1 < 4294967296)
    (hgoes : (s.close P.program).outcome? settings s.summary = none) :
    Phase P settings t (i + 1) 0 (begun P (i + 1) (s.close P.program)) := by
  cases h with
  | labelling hzero h =>
    subst hzero
    rcases h.next ht hshape with ⟨-, hrefining⟩ | ⟨-, hseeding⟩
    · exact .refining hrefining
    · exact .seeding rfl hseeding
  | seeding hone h =>
    subst hone
    exact .refining (h.next (hs.changed_ne_zero Nat.one_pos (by omega) hgoes))
  | refining h =>
    have hpos : 0 < i := Nat.lt_of_lt_of_le firstRefining_pos h.started
    exact .refining (h.next (hs.changed_ne_zero hpos (by omega) hgoes) hi)

/-- How a run from `t` with the given iteration ceiling ends. -/
structure Ended (P : Problem) (t : Candidates) (limit : Nat)
    (run : Finished Matching Label Label) : Prop where
  refined : run.report.outcome = .converged ∨ firstRefining t ≤ limit → Refined P t run.state
  /-- An idle seeding ends the run, with the table as it was. -/
  idle : run.report.outcome = .converged → Idle P t → run.state.pruned = 0
  covered : run.report.outcome = .converged → ¬ Idle P t → ∀ {u p}, u.toNat < P.vertexCount →
    run.state.table.relation u p → P.Covered run.state.table.relation u p
  /-- A run that has the time to refine and drops nothing converges. -/
  converges : run.state.pruned = 0 → firstRefining t < limit → run.report.outcome = .converged

/-- Labelling ends a run only if there is no vertex. -/
theorem Labelling.stops {outcome : Outcome} (h : Labelling P settings t P.vertexCount s)
    (hs : s.InIteration P.graph 0)
    (hend : (s.close P.program).outcome? settings s.summary = some outcome) :
    P.vertexCount = 0 := by
  obtain ⟨-, hquiet⟩ := Stage.outcome?_eq_some (s := s.close P.program) h.unasked hend
  rcases hquiet with hquiet | ⟨hsel, hactive⟩
  · have hfirst := (Stage.converged_summary.1 hquiet).1
    rw [hs.iteration] at hfirst
    exact absurd hfirst (by decide)
  · rw [← Problem.vertexCount_graph]
    exact Stage.Queued.vertexCount_eq_zero (by simpa using h.queued) hsel hactive

/-- Seeding ends a run only if there was nothing to seed. -/
theorem Seeding.stops {outcome : Outcome} (h : Seeding P settings t P.vertexCount s)
    (hend : (s.close P.program).outcome? settings s.summary = some outcome) : Idle P t := by
  obtain ⟨-, hquiet⟩ := Stage.outcome?_eq_some (s := s.close P.program) h.unasked hend
  rcases hquiet with hquiet | ⟨hsel, hactive⟩
  · exact h.changed_eq_zero_iff.1 (Stage.converged_summary.1 hquiet).2
  · have hempty := Stage.Queued.vertexCount_eq_zero (g := P.graph) (by simpa using h.queued)
      hsel hactive
    rw [Problem.vertexCount_graph] at hempty
    exact ⟨h.wasOpen, fun u hu => absurd hu (by omega)⟩

private theorem Phase.stops {outcome : Outcome} (h : Phase P settings t i P.vertexCount s)
    (ht : t.WF) (hs : s.InIteration P.graph i)
    (hend : (s.close P.program).outcome? settings s.summary = some outcome) :
    Ended P t limit ((s.close P.program).finish P.graph outcome rounds) := by
  obtain ⟨rfl, -⟩ := Stage.outcome?_eq_some (s := s.close P.program) h.unasked hend
  cases h with
  | labelling hzero h =>
    subst hzero
    have hempty := h.stops hs hend
    have htable : ((s.close P.program).finish P.graph .converged rounds).state.table = t := h.table
    refine ⟨fun _ => .of_seeded (htable ▸ ht) h.pruned fun {u p} => ?_, fun _ _ => h.pruned,
      fun _ _ {u p} hu => ?_, fun _ _ => rfl⟩
    · rw [htable, seeded_of_le (by omega)]
    · omega
  | seeding hone h =>
    exact ⟨fun _ => .of_seeded h.wf h.pruned h.relation_iff, fun _ _ => h.pruned,
      fun _ hbusy => absurd (h.stops hend) hbusy, fun _ _ => rfl⟩
  | refining h =>
    have hsettling := h.settling
    rw [← Problem.vertexCount_graph] at hsettling
    refine ⟨fun _ => h.refined.congr h.refined.wf rfl rfl, fun _ hidle => absurd hidle h.busy,
      fun _ _ {u p} hu hp => ?_, fun _ _ => rfl⟩
    exact hsettling.stable_of_converged hend (by rwa [Problem.vertexCount_graph]) p hp

/-- From the first iteration on that refines, a run refines. -/
theorem Phase.refines (h : Phase P settings t i k s) (hi : firstRefining t ≤ i) :
    Refining P settings t i k s := by
  cases h with
  | labelling hzero h =>
    have hpos : 0 < firstRefining t := firstRefining_pos
    omega
  | seeding hone h =>
    rw [firstRefining_of_isOpen h.wasOpen] at hi
    omega
  | refining h => exact h

/-- At the ceiling a run has dropped something, unless it was too short to refine once. -/
private theorem Phase.atCeiling (h : Phase P settings t limit 0 (begun P limit s)) :
    Ended P t limit (s.finish P.graph .iterationLimit rounds) := by
  refine ⟨fun hend => ?_, nofun, nofun, fun hzero hlt => ?_⟩
  · have hrefined := (h.refines (hend.resolve_left nofun)).refined
    exact hrefined.congr (wf_begun.1 hrefined.wf) relation_begun.symm pruned_begun.symm
  · have hdropped := (h.refines (Nat.le_of_lt hlt)).pruned_of_later hlt
    exact absurd (pruned_begun.trans hzero) hdropped

theorem toNat_ofNat_vertex (hk : k < P.vertexCount) : (UInt32.ofNat k).toNat = k := by
  have hle : P.vertexCount ≤ maxWord := P.vertexCount_le
  refine UInt32.toNat_ofNat_of_lt' ?_
  show k < 4294967296
  unfold maxWord at hle
  omega

/-- The ids of the vertices are words. -/
theorem vertexCount_graph_le : P.graph.vertexCount ≤ 4294967296 := by
  have hle : P.vertexCount ≤ maxWord := P.vertexCount_le
  rw [Problem.vertexCount_graph]
  unfold maxWord at hle
  omega

/-- The turn of vertex number `k` of the graph. -/
theorem visit_ofNat {prog : VertexProgram Matching Label Label}
    {D : Nat → Stage Matching Label Label → Prop} (hk : k < P.graph.vertexCount) (h : D k s)
    (hvisit : ∀ v : VertexId, v.toNat < P.vertexCount → D v.toNat s →
      Yields (s.visit prog settings P.graph v) fails (D (v.toNat + 1))) :
    Yields (s.visit prog settings P.graph (UInt32.ofNat k)) fails (D (k + 1)) :=
  Stage.visit_ofNat vertexCount_graph_le hk h fun v hv =>
    hvisit v (Nat.lt_of_lt_of_eq hv Problem.vertexCount_graph)

/-- The phases as an invariant of the run from `t`. -/
def phases (P : Problem) (settings : Settings) (ht : t.WF)
    (hshape : t.isSealed = false → t.capacity = P.vertexCount ∧ t.width = P.wanted.size) :
    RunInvariant P.program settings P.graph fun _ => False where
  between rounds s := Phase P settings t rounds.size 0 (begun P rounds.size s)
  during rounds k s := Phase P settings t rounds.size k s
  begins _ h := h
  entersWindow _ h := h
  leavesWindow _ h := h
  visits hround hk hs h := visit_ofNat hk h fun _ hv h =>
    h.visit ht hs (Nat.lt_trans hround settings.maxIterations.toNat_lt) hv
  ends {rounds s} hround hs h hgoes := by
    rw [Problem.vertexCount_graph] at h
    have hceiling : settings.maxIterations.toNat < 4294967296 := settings.maxIterations.toNat_lt
    rw [Array.size_push]
    exact h.next ht hshape hs (by omega) hgoes

/-- A run starts by labelling. -/
theorem phases_start (ht : t.WF)
    (hshape : t.isSealed = false → t.capacity = P.vertexCount ∧ t.width = P.wanted.size)
    {values slots : Array Label} (hvalues : values.size = P.vertexCount)
    (hslots : slots.size = P.list.edges.size) :
    (phases P settings ht hshape).between #[]
      { state := { table := t }, values, slots,
        tasks := (Tasks.ofVertexCount P.graph.vertexCount).addAll } := by
  have hn : P.graph.vertexCount ≤ maxWord := by
    rw [Problem.vertexCount_graph]
    exact P.vertexCount_le
  refine .labelling rfl ⟨rfl, ⟨hvalues, hslots, fun v hv => absurd hv (Nat.not_lt_zero _),
    fun _ hv => absurd hv (Nat.not_lt_zero _)⟩, ?_, ?_, ?_⟩
  · exact (Stage.queued_addAll hn).enter
  · rw [state_begun (by decide)]
    rfl
  · rw [state_begun (by decide)]
    rfl

/-- **How a run ends** that started from a well-formed table, which if open has the dimensions of
graph and pattern, and from any values in the graph. -/
theorem run_yields (settings : Settings) (ht : t.WF)
    (hshape : t.isSealed = false → t.capacity = P.vertexCount ∧ t.width = P.wanted.size)
    (values slots : Array Label)
    (hvalues : values.size = P.vertexCount) (hslots : slots.size = P.list.edges.size) :
    Yields (P.program.run settings { table := t } ⟨P.graph, values, slots⟩) (fun _ => False)
      (Ended P t settings.maxIterations.toNat) := by
  refine (phases P settings ht hshape).yields vertexCount_graph_le
    (phases_start ht hshape hvalues hslots) ?_ ?_
  · intro rounds s outcome hround hs h hend
    rw [Problem.vertexCount_graph] at h
    exact Phase.stops h ht hs hend
  · intro rounds s hsize h
    have hphase : Phase P settings t rounds.size 0 (begun P rounds.size s) := h
    rw [hsize] at hphase
    exact hphase.atCeiling

/-! ## The runs of the program -/

theorem ofAdjacency_graph : (DataGraph.ofAdjacency P.graph : DataGraph Label Label) =
    ⟨P.graph, Array.replicate P.vertexCount default,
      Array.replicate P.list.edges.size default⟩ := by
  rw [← Problem.vertexCount_graph]
  rfl

/-- A run on the graph of a problem, whose values are the default. -/
theorem run_ofAdjacency (settings : Settings) (ht : t.WF)
    (hshape : t.isSealed = false → t.capacity = P.vertexCount ∧ t.width = P.wanted.size) :
    ∃ run, P.program.run settings { table := t } (.ofAdjacency P.graph) = .ok run ∧
      Ended P t settings.maxIterations.toNat run := by
  rw [ofAdjacency_graph]
  exact Yields.exists_ok (run_yields settings ht hshape _ _ Array.size_replicate
    Array.size_replicate)

/-- Matching returns what the program has found in the graph of an accepted list, from an empty
table. -/
theorem solve_eq_ok {g : Adjacency} {run : Finished Matching Label Label}
    (hg : Adjacency.ofEdgeList P.list = .ok g)
    (hrun : P.program.run settings { table := .ofCapacity P.vertexCount P.wanted.size }
      (.ofAdjacency P.graph) = .ok run) :
    solve P.list P.pattern P.labels settings = .ok (.ofRun run) := by
  have hgraph : g = P.graph := Adjacency.eq_ofEdges_of_ofEdgeList hg
  subst hgraph
  have hvertices : (DataGraph.ofAdjacency P.graph : DataGraph Label Label).adjacency.vertexCount =
    P.vertexCount := Problem.vertexCount_graph
  simp only [solve, VertexProgram.runToEnd, DataGraph.ofEdgeList, hg, Except.map, bind, Except.bind,
    hvertices, Problem.vertexCount_pattern, hrun]
  rfl

/-- Matching from an empty table succeeds if the edge list is accepted. -/
theorem solve_yields (settings : Settings) {g : Adjacency}
    (hg : Adjacency.ofEdgeList P.list = .ok g) :
    ∃ run, solve P.list P.pattern P.labels settings = .ok (.ofRun run) ∧
      Ended P (.ofCapacity P.vertexCount P.wanted.size) settings.maxIterations.toNat run := by
  obtain ⟨run, hrun, hended⟩ := run_ofAdjacency (P := P) settings
    (Candidates.WF.ofCapacity P.vertexCount P.wanted.size) fun _ => ⟨Array.size_replicate, rfl⟩
  exact ⟨run, solve_eq_ok hg hrun, hended⟩

/-- Refining an existing table succeeds if the edge list is accepted. -/
theorem refineAgain_yields (settings : Settings) {g : Adjacency} (ht : t.WF)
    (hg : Adjacency.ofEdgeList P.list = .ok g) :
    ∃ run, refineAgain P.list P.pattern t P.labels settings = .ok (.ofRun run) ∧
      Ended P t.sealed settings.maxIterations.toNat run := by
  obtain ⟨run, hrun, hended⟩ := run_ofAdjacency (P := P) settings (Candidates.wf_sealed.2 ht) nofun
  refine ⟨run, ?_, hended⟩
  have hgraph : g = P.graph := Adjacency.eq_ofEdges_of_ofEdgeList hg
  subst hgraph
  simp only [refineAgain, VertexProgram.runOn, VertexProgram.runToEnd, DataGraph.ofEdgeList, hg,
    Except.map, bind, Except.bind, hrun]
  rfl

/-- A refinement of `t` that has the time for one sweep drops nothing exactly if all pairs are
covered. -/
theorem Ended.pruned_eq_zero_iff {run : Finished Matching Label Label}
    (h : Ended P t.sealed limit run) (hlimit : 2 ≤ limit) :
    run.state.pruned = 0 ↔ ∀ u p, u.toNat < P.vertexCount → t.relation u p →
      P.Covered t.relation u p := by
  have hfirst : firstRefining t.sealed < limit := by
    rw [firstRefining_of_isSealed rfl]
    omega
  have hrefined := h.refined (.inr (Nat.le_of_lt hfirst))
  have hseeded : ∀ {u p}, Seeded P t.sealed u p ↔ t.relation u p := seeded_of_isSealed rfl
  rw [hrefined.pruned_eq_zero_iff]
  constructor
  · intro hall u p hu hp
    have hconverged := h.converges (hrefined.pruned_eq_zero_iff.2 hall) hfirst
    have hcovered :=
      h.covered hconverged (not_idle_of_isSealed rfl) hu (hall u p (hseeded.2 hp))
    exact hcovered.mono fun v q hq => hseeded.1 (hrefined.le hq)
  · intro hall u p hp
    by_cases hu : u.toNat < P.vertexCount
    · -- On the graph the table is a relation that covers its own pairs.
      refine hrefined.keeps (S := fun u p => u.toNat < P.vertexCount ∧ t.relation u p)
        (fun v q hq => ?_) (fun v q hq => hseeded.2 hq.2) u p ⟨hu, hseeded.1 hp⟩
      exact (hall v q hq.1 hq.2).congr fun w r hedge hr =>
        ⟨(Problem.isVertex_of_edge hedge).2, hr⟩
    · exact hrefined.outside (Nat.not_lt.1 hu) (hseeded.1 hp)

end VertexSweep.Simulation
