import VertexSweep.Proofs.Match.Bookkeeping

/-!
# How many iterations a simulation needs

A round that does not end a run changes something, and once vertices are refined this means that a
pair is dropped (`Records.moved`). So after as many such rounds as there were pairs to begin with
nothing is left to drop. Labelling and seeding take two rounds, and the last one finds that nothing
changes: a run from an empty table converges within three rounds more than there are pairs of equal
labels (`converges_within_budget`). A selective run may end before, for want of tasks, which counts
as convergence too.
-/

namespace VertexSweep.Simulation

variable {P : Problem} {settings : Settings} {t : Candidates} {i n : Nat}
  {s : Stage Matching Label Label} {u : VertexId} {p : PatternId}

/-- Seeding makes at most `n` pairs of `t`. -/
def SeedsAtMost (P : Problem) (t : Candidates) (n : Nat) : Prop :=
  ∀ t' : Candidates, t'.WF → (∀ u p, t'.relation u p → Seeded P t u p) → t'.total ≤ n

/-- `t` has no more than `n` pairs left when vertices begin to be refined, and one less after every
iteration. -/
structure Paced (P : Problem) (settings : Settings) (t : Candidates) (n i : Nat)
    (s : Stage Matching Label Label) : Prop where
  phase : Phase P settings t i 0 (begun P i s)
  kept : Kept t i s
  pace : firstRefining t ≤ i → s.state.table.total + (i - firstRefining t) ≤ n

/-- There is time left for another iteration while there are pairs. -/
theorem Paced.le (h : Paced P settings t n i s) : i ≤ n + firstRefining t := by
  by_cases hrefines : firstRefining t ≤ i
  · have hpace := h.pace hrefines
    omega
  · omega

/-- What was seeded is all there is to refine. -/
theorem Phase.total_le (h : Phase P settings t i 0 (begun P i s)) (hi : firstRefining t ≤ i)
    (hn : SeedsAtMost P t n) : s.state.table.total ≤ n := by
  have hrefined := (h.refines hi).refined
  refine hn _ (wf_begun.1 hrefined.wf) fun u p hp => hrefined.le ?_
  rwa [relation_begun]

/-- A round of refinement that was not quiet leaves a pair less. -/
theorem Paced.drop (h : Paced P settings t n i s) {round : RoundSummary}
    {s' : Stage Matching Label Label} (hrecords : Records t i s round s')
    (hchanged : round.changed ≠ 0) (hi : firstRefining t ≤ i) :
    s'.state.table.total + (i + 1 - firstRefining t) ≤ n := by
  have hpos : 0 < i := Nat.lt_of_lt_of_le firstRefining_pos hi
  obtain ⟨k, ⟨-, hzero⟩, ⟨hseeds, -⟩ | ⟨-, htotal⟩⟩ := hrecords.moved (Nat.ne_of_gt hpos)
  · omega
  · have hdropped : k ≠ 0 := fun hk => hchanged (hzero.1 hk)
    have hpace := h.pace hi
    omega

/-- A run either converges or gets on. -/
theorem Paced.iterate (h : Paced P settings t n i s) (ht : t.WF)
    (hshape : t.isSealed = false → t.capacity = P.vertexCount ∧ t.width = P.wanted.size)
    (hn : SeedsAtMost P t n) {rounds : Array RoundSummary} (hsize : rounds.size = i)
    (hi : i < settings.maxIterations.toNat)
    (hbound : s.tasks.bound = min P.graph.vertexCount maxWord) :
    Yields (s.iterate P.program settings P.graph
        (windows P.graph.vertexCount settings.intervalSize) (UInt32.ofNat i)) (fun _ => False)
      fun out =>
        (∀ outcome, out.2.outcome? settings out.1 = some outcome → outcome = .converged) ∧
        (out.2.outcome? settings out.1 = none →
          out.2.tasks.bound = min P.graph.vertexCount maxWord ∧
            Paced P settings t n (i + 1) out.2) := by
  have hceiling : settings.maxIterations.toNat < 4294967296 := settings.maxIterations.toNat_lt
  subst hsize
  have hphase := (phases P settings ht hshape).iterate_yields vertexCount_graph_le hi hbound h.phase
  have hrecords : Yields (s.iterate P.program settings P.graph
      (windows P.graph.vertexCount settings.intervalSize) (UInt32.ofNat rounds.size)) _ _ :=
    h.kept.iterate (Nat.lt_trans hi hceiling)
  refine (hrecords.and hphase).imp ?_
  rintro _ ⟨hrecords, s', rfl, hs', hphase⟩
  have hlast : Phase P settings t rounds.size P.vertexCount s' := by
    rw [← Problem.vertexCount_graph]
    exact hphase
  refine ⟨fun outcome hend => ?_, fun hgoes => ⟨(hs'.run _).bound, ?_⟩⟩
  · exact (Stage.outcome?_eq_some (s := s'.close P.program) hlast.unasked hend).1
  · have hnext := hlast.next ht hshape hs' (by omega) hgoes
    refine ⟨hnext, hrecords.kept, fun hrefines => ?_⟩
    by_cases hfirst : firstRefining t ≤ rounds.size
    · have hpos : 0 < rounds.size := Nat.lt_of_lt_of_le firstRefining_pos hfirst
      exact h.drop hrecords (hs'.changed_ne_zero hpos (Nat.lt_trans hi hceiling) hgoes) hfirst
    · have htotal : (s'.close P.program).state.table.total ≤ n := hnext.total_le hrefines hn
      show (s'.close P.program).state.table.total + _ ≤ n
      omega

/-- A run that starts from `t` converges within `n` rounds and those of labelling, seeding and the
last look, if there is no more than `n` pairs to drop. -/
theorem run_converges (ht : t.WF)
    (hshape : t.isSealed = false → t.capacity = P.vertexCount ∧ t.width = P.wanted.size)
    (hn : SeedsAtMost P t n)
    (hlimit : n + firstRefining t < settings.maxIterations.toNat) {values slots : Array Label}
    (hvalues : values.size = P.vertexCount) (hslots : slots.size = P.list.edges.size) :
    Yields (P.program.run settings { table := t } ⟨P.graph, values, slots⟩) (fun _ => False)
      fun run => run.report.outcome = .converged ∧
        run.report.rounds.size ≤ n + firstRefining t + 1 ∧
        run.report.iterations.toNat = run.report.rounds.size := by
  have hceiling : settings.maxIterations.toNat < 4294967296 := settings.maxIterations.toNat_lt
  refine Stage.runFrom_yields
    (I := fun rounds s => s.tasks.bound = min P.graph.vertexCount maxWord ∧
      Paced P settings t n rounds.size s) ?_ ?_ _ (Nat.zero_add _) ⟨rfl, ?_⟩
  · rintro rounds s hround ⟨hbound, hpaced⟩
    refine (hpaced.iterate ht hshape hn rfl hround hbound).imp ?_
    rintro out ⟨hstops, hgoes⟩
    have hle := hpaced.le
    refine ⟨fun outcome hend => ?_, fun hend => ?_⟩
    · have hsize : (rounds.push out.1).size = rounds.size + 1 := Array.size_push ..
      refine ⟨hstops outcome hend, ?_, UInt32.toNat_ofNat_of_lt' ?_⟩
      · show (rounds.push out.1).size ≤ _
        omega
      · show (rounds.push out.1).size < 4294967296
        omega
    · rw [Array.size_push]
      exact hgoes hend
  · rintro rounds s hsize ⟨-, hpaced⟩
    have hle := hpaced.le
    omega
  · exact ⟨phases_start ht hshape hvalues hslots, ⟨ht, rfl, fun _ => rfl⟩,
      fun hzero => absurd hzero (Nat.not_le.2 firstRefining_pos)⟩

/-! ## Runs from an empty table -/

/-- The pairs of a vertex of the graph and one of the pattern that have the same label. -/
def Problem.agreeing (P : Problem) : Finset (VertexId × PatternId) :=
  ((Finset.range P.vertexCount).image UInt32.ofNat ×ˢ
    (Finset.range P.wanted.size).image UInt32.ofNat).filter fun pair =>
      P.wanted[pair.2.toNat]? = some (P.labels pair.1)

theorem Problem.mem_agreeing : (u, p) ∈ P.agreeing ↔ u.toNat < P.vertexCount ∧ P.Agrees u p := by
  simp only [agreeing, Finset.mem_filter, Finset.mem_product, Finset.mem_image, Finset.mem_range]
  constructor
  · rintro ⟨⟨⟨k, hk, rfl⟩, -⟩, hagrees⟩
    rw [toNat_ofNat_vertex hk]
    exact ⟨hk, hagrees⟩
  · rintro ⟨hu, hagrees⟩
    exact ⟨⟨⟨u.toNat, hu, UInt32.ofNat_toNat⟩,
      p.toNat, Agrees.lt_size hagrees, UInt32.ofNat_toNat⟩, hagrees⟩

theorem seedsAtMost_ofCapacity :
    SeedsAtMost P (.ofCapacity P.vertexCount P.wanted.size) P.agreeing.card := by
  intro t' h hle
  rw [Candidates.total_eq_card h]
  apply Finset.card_le_card
  rintro ⟨u, p⟩ hp
  exact Problem.mem_agreeing.2 (seeded_ofCapacity.1 (hle u p ((Candidates.mem_pairSet h).1 hp)))

/-- **Matching terminates within its budget**: if the ceiling leaves room for three iterations more
than there are pairs of equal labels, matching succeeds and converges within that number, in either
mode and whatever the window size. -/
theorem converges_within_budget {g : Adjacency} (hg : Adjacency.ofEdgeList P.list = .ok g)
    (hbudget : P.agreeing.card + 3 ≤ settings.maxIterations.toNat) :
    ∃ found, solve P.list P.pattern P.labels settings = .ok found ∧
      found.report.outcome = .converged ∧
      found.report.iterations.toNat = found.report.rounds.size ∧
      found.report.rounds.size ≤ P.agreeing.card + 3 := by
  have hempty : (Candidates.ofCapacity P.vertexCount P.wanted.size).WF := .ofCapacity ..
  have hfirst := firstRefining_of_isOpen (t := .ofCapacity P.vertexCount P.wanted.size) rfl
  have hyields : Yields (P.program.run settings _ ⟨P.graph, Array.replicate P.vertexCount default,
      Array.replicate P.list.edges.size default⟩) _ _ :=
    run_converges hempty (fun _ => ⟨Array.size_replicate, rfl⟩) seedsAtMost_ofCapacity (by omega)
      Array.size_replicate Array.size_replicate
  rw [hfirst, ← ofAdjacency_graph] at hyields
  obtain ⟨run, hrun, hconverged, hrounds, hiterations⟩ := Yields.exists_ok hyields
  exact ⟨.ofRun run, solve_eq_ok hg hrun, hconverged, hiterations, hrounds⟩

/-- Four pairs have equal labels, one of each vertex, so a ceiling of seven is enough. -/
theorem converges_within_budget_twoCycle : twoCycle.agreeing.card = 4 ∧ ∃ found,
    solve twoCycle.list twoCycle.pattern twoCycle.labels
        { maxIterations := 7, selective := true, intervalSize := 1 } = .ok found ∧
      found.report.outcome = .converged ∧
      found.report.iterations.toNat = found.report.rounds.size ∧
      found.report.rounds.size ≤ twoCycle.agreeing.card + 3 := by
  have hcard : twoCycle.agreeing.card = 4 := by decide +kernel
  refine ⟨hcard, ?_⟩
  exact converges_within_budget (P := twoCycle) (g := twoCycle.graph) rfl (by rw [hcard]; decide)

end VertexSweep.Simulation
