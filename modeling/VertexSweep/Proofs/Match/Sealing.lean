import VertexSweep.Proofs.Match.Auditing
import VertexSweep.Proofs.Match.Bookkeeping

/-!
# When a converged table is sealed

A table is sealed when iteration 2 begins. A run that converges before that leaves it open: the
seeding sweep of iteration 1 is quiet if there is nothing to seed, and a quiet round ends any run.
So the table of a converged run from an empty table is sealed if and only if some vertex has the
label of a pattern vertex (`isSealed_iff_of_converged`), and it is otherwise that an audit warns of
a table that was never sealed.

While the table is open the edges of the pattern are not looked at, so that the invariants of
labelling and seeding serve for every pattern with the same labels, of whatever size
(`updateOf_congr`).
-/

namespace VertexSweep.Simulation

variable {P : Problem} {pattern pattern' : Pattern} {labels : VertexId → Label}
  {settings : Settings} {g : Adjacency} {t : Candidates} {m : Matching} {i k : Nat}
  {s : Stage Matching Label Label} {v : VertexId} {rounds : Array RoundSummary}

/-! ## Patterns with the same labels -/

theorem seed_congr {view : View Label Label} (h : pattern.labels = pattern'.labels) :
    seed pattern m view = seed pattern' m view := by
  simp only [seed, Pattern.vertices, Pattern.vertexCount, Pattern.labelOf?, h]

/-- The edges of a pattern do not matter before the table is sealed. -/
theorem updateOf_congr (h : pattern.labels = pattern'.labels)
    (hopen : s.control.iteration = 0 ∨ s.state.table.isSealed = false) :
    s.updateOf (program pattern labels) settings g v =
      s.updateOf (program pattern' labels) settings g v := by
  simp only [Stage.updateOf, program]
  rcases hopen with hzero | hopen
  · rw [if_pos hzero, if_pos hzero]
  · simp only [hopen, Bool.false_eq_true, if_false, seed_congr h]

theorem visit_congr (h : pattern.labels = pattern'.labels)
    (hopen : s.control.iteration = 0 ∨ s.state.table.isSealed = false) :
    s.visit (program pattern labels) settings g v =
      s.visit (program pattern' labels) settings g v := by
  rw [Stage.visit_eq, Stage.visit_eq, updateOf_congr h hopen]

/-! ## The run -/

/-- What holds in iteration `i` of a run from an open table when the vertices below `k` have had
their turn. The table is open until there is something to refine. -/
inductive Opening (P : Problem) (settings : Settings) (t : Candidates) (i k : Nat)
    (s : Stage Matching Label Label) : Prop where
  | labelling (hi : i = 0) (h : Labelling P settings t k s)
  | seeding (hi : i = 1) (h : Seeding P settings t k s)
  | refining (hi : 2 ≤ i) (hunasked : s.control.last = none) (hwf : s.state.table.WF)
      (hsealed : s.state.table.isSealed = true) (hbusy : ¬ Idle P t)

theorem Opening.visit {fails : Aborted Matching Label Label → Prop}
    (h : Opening P settings t i v.toNat s) (hlabels : pattern.labels = P.pattern.labels)
    (ht : t.WF) (hs : s.InIteration P.graph i) (hi : i < 4294967296)
    (hv : v.toNat < P.vertexCount) :
    Yields (s.visit (program pattern P.labels) settings P.graph v) fails
      (Opening P settings t i (v.toNat + 1)) := by
  cases h with
  | labelling hzero h =>
    subst hzero
    rw [visit_congr hlabels (.inl hs.iteration)]
    exact (h.visit hs hv).imp fun _ => .labelling rfl
  | seeding hone h =>
    subst hone
    rw [visit_congr hlabels (.inr h.isOpen)]
    exact (h.visit ht hs hv).imp fun _ => .seeding rfl
  | refining hlate hunasked hwf hsealed hbusy =>
    have hupdate : s.updateOf (program pattern P.labels) settings P.graph v = _ :=
      updateOf_program hs.iteration hi
    rw [if_neg (by omega), hsealed, if_pos rfl] at hupdate
    obtain ⟨b, n, hverdict, hloses, -⟩ := refine_loses pattern (viewOf P s v) hwf
    refine Stage.visit_yields (fun _ _ => .refining hlate hunasked hwf hsealed hbusy)
      (fun fault hfault => ?_) fun activity _ _ => ?_
    · rw [hupdate, hverdict] at hfault
      cases hfault
    · rw [hupdate]
      exact .refining hlate hunasked hloses.wf (hloses.isSealed.trans hsealed) hbusy

theorem Opening.next (h : Opening P settings t i P.vertexCount s) (ht : t.WF)
    (hopen : t.isSealed = false) (hcapacity : t.capacity = P.vertexCount)
    (hwidth : t.width = P.wanted.size) (hs : s.InIteration P.graph i) (hi : i + 1 < 4294967296)
    (hgoes : (s.close P.program).outcome? settings s.summary = none) :
    Opening P settings t (i + 1) 0 (begun P (i + 1) (s.close P.program)) := by
  have hseals : 1 ≤ i → (begun P (i + 1) (s.close P.program)).state.table.isSealed = true := by
    intro hpos
    rw [state_begun hi, if_pos (by omega)]
    rfl
  cases h with
  | labelling hzero h =>
    subst hzero
    rcases h.next ht fun _ => ⟨hcapacity, hwidth⟩ with ⟨hsealed, -⟩ | ⟨-, hseeding⟩
    · rw [hopen] at hsealed
      cases hsealed
    · exact .seeding rfl hseeding
  | seeding hone h =>
    subst hone
    have hchanged := hs.changed_ne_zero Nat.one_pos (by omega) hgoes
    exact .refining (Nat.le_refl 2) h.unasked (wf_begun.2 h.wf) (hseals (Nat.le_refl 1))
      fun hidle => hchanged (h.changed_eq_zero_iff.2 hidle)
  | refining hlate hunasked hwf _ hbusy =>
    exact .refining (by omega) hunasked (wf_begun.2 hwf) (hseals (by omega)) hbusy

/-- A run converges with an open table exactly if seeding had nothing to do. -/
theorem Opening.stops {outcome : Outcome} (h : Opening P settings t i P.vertexCount s)
    (hopen : t.isSealed = false) (hs : s.InIteration P.graph i)
    (hend : (s.close P.program).outcome? settings s.summary = some outcome) :
    (s.close P.program).state.table.isSealed = true ↔ ¬ Idle P t := by
  cases h with
  | labelling hzero h =>
    subst hzero
    have hempty := h.stops hs hend
    have hsealed : (s.close P.program).state.table.isSealed = false := h.table ▸ hopen
    rw [hsealed]
    exact iff_of_false Bool.false_ne_true fun hbusy => hbusy ⟨hopen, fun u hu => by omega⟩
  | seeding _ h =>
    have hsealed : (s.close P.program).state.table.isSealed = false := h.isOpen
    rw [hsealed]
    exact iff_of_false Bool.false_ne_true fun hbusy => hbusy (h.stops hend)
  | refining _ _ _ hsealed hbusy => exact iff_of_true hsealed hbusy

/-- The opening of a run, and what comes after it, as an invariant. -/
def opening (P : Problem) (settings : Settings) (hlabels : pattern.labels = P.pattern.labels)
    (ht : t.WF) (hopen : t.isSealed = false) (hcapacity : t.capacity = P.vertexCount)
    (hwidth : t.width = P.wanted.size) :
    RunInvariant (program pattern P.labels) settings P.graph fun _ => False where
  between rounds s := Opening P settings t rounds.size 0 (begun P rounds.size s)
  during rounds k s := Opening P settings t rounds.size k s
  begins _ h := h
  entersWindow _ h := h
  leavesWindow _ h := h
  visits hround hk hs h := visit_ofNat hk h fun _ hv h =>
    h.visit hlabels ht hs (Nat.lt_trans hround settings.maxIterations.toNat_lt) hv
  ends {rounds s} hround hs h hgoes := by
    rw [Problem.vertexCount_graph] at h
    have hceiling : settings.maxIterations.toNat < 4294967296 := settings.maxIterations.toNat_lt
    rw [Array.size_push]
    exact h.next ht hopen hcapacity hwidth hs (by omega) hgoes

theorem isSealed_run (settings : Settings) (hlabels : pattern.labels = P.pattern.labels)
    (ht : t.WF) (hopen : t.isSealed = false) (hcapacity : t.capacity = P.vertexCount)
    (hwidth : t.width = P.wanted.size) {values slots : Array Label}
    (hvalues : values.size = P.vertexCount) (hslots : slots.size = P.list.edges.size) :
    Yields ((program pattern P.labels).run settings { table := t } ⟨P.graph, values, slots⟩)
      (fun _ => False) fun run => run.report.outcome = .converged →
        (run.state.table.isSealed = true ↔ ¬ Idle P t) := by
  refine (opening P settings hlabels ht hopen hcapacity hwidth).yields vertexCount_graph_le
    ?_ ?_ fun _ _ => nofun
  · have hphase : (phases P settings ht fun _ => ⟨hcapacity, hwidth⟩).between #[] _ :=
      phases_start ht _ hvalues hslots
    cases hphase with
    | labelling hzero h => exact .labelling hzero h
    | seeding hone h => cases hone
    | refining h => exact absurd h.started (Nat.not_le.2 firstRefining_pos)
  · intro rounds s outcome hround hs h hend _
    rw [Problem.vertexCount_graph] at h
    exact h.stops hopen hs hend

/-! ## Matching -/

/-- Some vertex of the graph has the label of some vertex of the pattern. -/
def Matchable (l : EdgeList) (pattern : Pattern) (labels : VertexId → Label) : Prop :=
  ∃ u p, u.toNat < l.vertexCount ∧ pattern.labelOf? p = some (labels u)

theorem idle_ofCapacity : Idle P (.ofCapacity P.vertexCount P.wanted.size) ↔
    ∀ u : VertexId, u.toNat < P.vertexCount → ∀ p, ¬ P.Agrees u p := by
  have hlive : ∀ u, (Candidates.ofCapacity P.vertexCount P.wanted.size).isLive u = false := fun u =>
    (Candidates.isLive_eq_false_iff (.ofCapacity ..)).2 fun _ => Candidates.contains_ofCapacity
  constructor
  · rintro ⟨-, hall⟩ u hu
    exact (hall u hu).resolve_left fun h => by simp [hlive] at h
  · exact fun hall => ⟨rfl, fun u hu => .inr (hall u hu)⟩

/-- The labels of a pattern make a pattern without edges. -/
theorem exists_build_labels {n : Nat} {arcs : Array (PatternId × PatternId)} {wanted : Array Label}
    (h : Pattern.build n arcs wanted = .ok pattern) :
    ∃ pattern', Pattern.build wanted.size #[] wanted = .ok pattern' ∧
      pattern.labels = pattern'.labels ∧ pattern.labels = wanted := by
  obtain ⟨rfl, hle, -, rfl⟩ := Pattern.build_eq_ok h
  have haccepted : ∃ pattern', Pattern.build wanted.size #[] wanted = .ok pattern' :=
    Pattern.exists_build_iff.2 ⟨rfl, hle, by simp⟩
  obtain ⟨pattern', hbuild⟩ := haccepted
  obtain ⟨-, -, -, rfl⟩ := Pattern.build_eq_ok hbuild
  exact ⟨_, hbuild, rfl, rfl⟩

/-- A sealed table refuses every addition. -/
theorem add_of_isSealed (h : t.isSealed = true) (u : VertexId) (p : PatternId) :
    ∃ fault, t.add u p = (.error fault, t) := by
  cases hdefect : t.addDefect? u p with
  | some fault => exact ⟨fault, Candidates.add_of_addDefect?_eq_some hdefect⟩
  | none =>
    obtain ⟨-, -, hopen⟩ := Candidates.addDefect?_eq_none_iff.1 hdefect
    rw [h] at hopen
    cases hopen

variable {l : EdgeList} {n : Nat} {arcs : Array (PatternId × PatternId)} {wanted : Array Label}
  {found : Found}

private theorem isSealed_solve (hl : l.Built) (hn : l.vertexCount ≤ maxWord)
    (hpattern : Pattern.build n arcs wanted = .ok pattern) (hg : Adjacency.ofEdgeList l = .ok g)
    (h : solve l pattern labels settings = .ok found)
    (hconverged : found.report.outcome = .converged) :
    found.table.isSealed = true ↔ Matchable l pattern labels := by
  obtain ⟨pattern', hbuild, hlabels, hwanted⟩ := exists_build_labels hpattern
  let P : Problem := ⟨l, labels, #[], wanted, pattern', hl, hn, hbuild, Nat.zero_le _⟩
  have hgraph : g = P.graph := Adjacency.eq_ofEdges_of_ofEdgeList hg
  subst hgraph
  have hvertices : (DataGraph.ofAdjacency P.graph : DataGraph Label Label).adjacency.vertexCount =
    P.vertexCount := Problem.vertexCount_graph
  have hwidth : pattern.vertexCount = P.wanted.size := congrArg Array.size hwanted
  obtain ⟨run, hrun, hsealed⟩ := Yields.exists_ok (isSealed_run (P := P) settings hlabels
    (Candidates.WF.ofCapacity P.vertexCount P.wanted.size) rfl Array.size_replicate rfl
    (Array.size_replicate (v := default)) (Array.size_replicate (v := default)))
  rw [← ofAdjacency_graph] at hrun
  simp only [solve, VertexProgram.runToEnd, DataGraph.ofEdgeList, hg, Except.map, bind, Except.bind,
    hvertices, hwidth] at h
  rw [hrun] at h
  cases h
  have hagrees : ∀ u p, pattern.labelOf? p = some (labels u) ↔ P.Agrees u p := by
    intro u p
    rw [Pattern.labelOf?, hwanted]
    rfl
  rw [show (Found.ofRun run).table = run.state.table from rfl, hsealed hconverged, idle_ofCapacity]
  simp only [Matchable, hagrees, not_forall, not_not, exists_prop, exists_and_left]
  rfl

/-- **When a converged run has sealed its table**: exactly if some vertex has the label of a pattern
vertex. Then no candidate can be added any more; and an audit warns of a table that was never sealed
exactly if there is no such vertex. -/
theorem isSealed_iff_of_converged (hl : l.Built) (hn : l.vertexCount ≤ maxWord)
    (hpattern : Pattern.build n arcs wanted = .ok pattern)
    (h : solve l pattern labels settings = .ok found)
    (hconverged : found.report.outcome = .converged) :
    (found.table.isSealed = true ↔ Matchable l pattern labels) ∧
    (Matchable l pattern labels → ∀ u p, ∃ fault,
      found.table.add u p = (.error fault, found.table)) ∧
    ∀ level, ∃ audit, Audit.ofEdgeList l found.labels pattern found.table level = .ok audit ∧
      (.unsealed ∈ audit.findings ↔ ¬ Matchable l pattern labels) := by
  cases hg : Adjacency.ofEdgeList l with
  | error fault =>
    simp only [solve, DataGraph.ofEdgeList, hg] at h
    cases h
  | ok g =>
    have hsealed := isSealed_solve hl hn hpattern hg h hconverged
    refine ⟨hsealed, fun hmatchable => add_of_isSealed (hsealed.2 hmatchable), fun level => ?_⟩
    refine ⟨Audit.ofAdjacency g found.labels pattern found.table level, ?_, ?_⟩
    · rw [Audit.ofEdgeList, hg]
      rfl
    · rw [Audit.unsealed_mem_findings, ← hsealed, Bool.not_eq_true]

theorem isSealed_iff_of_converged_twoCycle : ∃ found,
    solve twoCycle.list twoCycle.pattern twoCycle.labels {} = .ok found ∧
      found.report.outcome = .converged ∧
      (found.table.isSealed = true ↔ Matchable twoCycle.list twoCycle.pattern twoCycle.labels) ∧
      (Matchable twoCycle.list twoCycle.pattern twoCycle.labels → ∀ u p, ∃ fault,
        found.table.add u p = (.error fault, found.table)) ∧
      ∀ level, ∃ audit,
        Audit.ofEdgeList twoCycle.list found.labels twoCycle.pattern found.table level =
            .ok audit ∧
          (.unsealed ∈ audit.findings ↔
            ¬ Matchable twoCycle.list twoCycle.pattern twoCycle.labels) := by
  obtain ⟨found, h, hconverged⟩ := Yields.exists_ok_of_any
    (x := solve twoCycle.list twoCycle.pattern twoCycle.labels {})
    (f := (·.report.outcome == .converged)) (by decide +kernel)
  rw [beq_iff_eq] at hconverged
  exact ⟨found, h, hconverged, isSealed_iff_of_converged twoCycle.listBuilt twoCycle.vertexCount_le
    twoCycle.patternBuilt h hconverged⟩

/-- A pattern of one vertex. -/
def lonePattern : Pattern := ⟨#[0, 0], #[], #[2]⟩

/-- If no vertex has a label of the pattern, a run converges with a table that is open: a candidate
can still be added, and an audit of the run warns that there was no refinement. -/
theorem open_of_lonePattern : Pattern.build 1 #[] #[2] = .ok lonePattern ∧ ∃ found audit,
    solve (.ofVertexCount 1) lonePattern (fun _ => 1) {} = .ok found ∧
      found.report.outcome = .converged ∧ found.table.isSealed = false ∧
      (found.table.add 0 0).1 = .ok true ∧ (found.table.add 0 0).2.total = 1 ∧
      Audit.ofEdgeList (.ofVertexCount 1) found.labels lonePattern found.table .full = .ok audit ∧
      .unsealed ∈ audit.findings := by
  obtain ⟨found, h, hfacts⟩ := Yields.exists_ok_of_any
    (x := solve (.ofVertexCount 1) lonePattern (fun _ => 1) {})
    (f := fun found => found.report.outcome == .converged && !found.table.isSealed &&
      (found.table.add 0 0).1 == .ok true && (found.table.add 0 0).2.total == 1)
    (by decide +kernel)
  simp only [Bool.and_eq_true, beq_iff_eq, Bool.not_eq_true'] at hfacts
  obtain ⟨⟨⟨hconverged, hopen⟩, hadded⟩, htotal⟩ := hfacts
  refine ⟨by rfl, found, _, h, hconverged, hopen, hadded, htotal, rfl, ?_⟩
  exact Audit.unsealed_mem_findings.2 hopen

end VertexSweep.Simulation
