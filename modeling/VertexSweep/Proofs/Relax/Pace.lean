import VertexSweep.Proofs.Relax.Law

/-!
# How long a relaxation takes

The vertices of a relaxation may come to rest in ranks: one that has its turn after all those of
lower rank have come to rest does so itself, and so does one that is stable then
(`Law.Ranked`). Every iteration after the first one therefore brings another rank to rest, in
either activation mode and whatever the order of the ids (`Ranked.Advancing`), and when there is no
rank left the next iteration is quiet. So a run converges within two iterations more than there are
vertices, and one that is stopped before has brought as many ranks to rest as it could
(`Ranked.run_yields`).
-/

namespace VertexSweep.Relaxation

variable {g : Adjacency} {start step : View UInt32 UInt32 → Update Unit UInt32 UInt32}
  {settings : Settings} {k i limit : Nat} {s : Stage Unit UInt32 UInt32} {v : VertexId}
  {x : Numbers} {fails : Aborted Unit UInt32 UInt32 → Prop} {rounds : Array RoundSummary}
  {outcome : Outcome}

/-- A ceiling that exceeds the vertex count bounds it. -/
theorem le_maxWord_of_ceiling {n : Nat} (hlimit : n + 2 ≤ settings.maxIterations.toNat) :
    n ≤ maxWord := by
  have hword : settings.maxIterations.toNat ≤ maxWord :=
    Nat.le_of_lt_succ settings.maxIterations.toNat_lt
  omega

/-- Which vertices come to rest before which others, and what it means to have done so. -/
structure Ranking where
  rank : VertexId → Nat
  resting : Numbers → VertexId → Prop

/-- The vertices of rank below `i` have come to rest. -/
def Ranking.RestsBelow (R : Ranking) (g : Adjacency) (i : Nat) (x : Numbers) : Prop :=
  ∀ v : VertexId, v.toNat < g.vertexCount → R.rank v < i → R.resting x v

/-- A ranking that the turns of a relaxation respect. -/
structure Law.Ranked (L : Law g start step) extends Ranking where
  rank_lt : ∀ v : VertexId, v.toNat < g.vertexCount → rank v < g.vertexCount
  resting_of_stable : ∀ {x v}, L.sound x → v.toNat < g.vertexCount →
    toRanking.RestsBelow g (rank v) x → L.stable x v → resting x v
  resting_after : ∀ {x view v}, view.Shows g x → L.sound x → v.toNat < g.vertexCount →
    toRanking.RestsBelow g (rank v) x → v = view.id ∨ resting x v →
    resting (x.after view.id (step view).view) v
  quiet : ∀ {x view}, view.Shows g x → L.sound x →
    (∀ v : VertexId, v.toNat < g.vertexCount → resting x v) → (step view).verdict = .ok .quiet

namespace Law.Ranked

variable {L : Law g start step} {R : L.Ranked}

theorem RestsBelow.mono {j : Nat} (h : R.RestsBelow g i x) (hle : j ≤ i) : R.RestsBelow g j x :=
  fun v hv hrank => h v hv (Nat.lt_of_lt_of_le hrank hle)

theorem RestsBelow.all (h : R.RestsBelow g i x) (hi : g.vertexCount ≤ i) (v : VertexId)
    (hv : v.toNat < g.vertexCount) : R.resting x v :=
  h v hv (Nat.lt_of_lt_of_le (R.rank_lt v hv) hi)

theorem resting_of_all_stable (hsound : L.sound x)
    (hstable : ∀ {v : VertexId}, v.toNat < g.vertexCount → L.stable x v)
    (hv : v.toNat < g.vertexCount) : R.resting x v := by
  -- Those of lower rank have come to rest before.
  induction hr : R.rank v using Nat.strong_induction_on generalizing v with
  | _ r ih =>
    refine R.resting_of_stable hsound hv (fun u hu hlt => ?_) (hstable hv)
    exact ih _ (hr ▸ hlt) hu rfl

/-! ## One iteration -/

/-- Iteration `i + 1` when the vertices below `k` have had their turn. The ranks below `i` have come
to rest before it, and the vertices of rank `i` do when their turn comes. -/
structure Advancing (R : L.Ranked) (settings : Settings) (i k : Nat)
    (s : Stage Unit UInt32 UInt32) : Prop where
  le : i ≤ g.vertexCount
  below : R.RestsBelow g i s.numbers
  next : ∀ v : VertexId, v.toNat < g.vertexCount → R.rank v = i → R.resting s.numbers v ∨
    (k ≤ v.toNat ∧ (settings.selective = true → s.tasks.isDue v = true))
  quiet : g.vertexCount ≤ i → s.changed = 0

/-- An iteration begins with a turn to come for every vertex that is not stable. -/
theorem advancing_enter {iteration : UInt32} (h : L.Settled settings 0 (s.enter iteration))
    (hle : i ≤ g.vertexCount) (hbelow : R.RestsBelow g i s.numbers) :
    R.Advancing settings i 0 (s.enter iteration) := by
  refine ⟨hle, hbelow, fun v hv hrank => ?_, fun _ => rfl⟩
  rcases h.settling v hv with hstable | hdue | ⟨hchanged, -⟩
  · exact .inl (R.resting_of_stable h.sound hv (hrank ▸ hbelow) hstable)
  · exact .inr hdue
  · exact absurd rfl hchanged

/-- Whose turn is skipped had come to rest before. -/
theorem Advancing.skip (h : R.Advancing settings i v.toNat s) (hsel : settings.selective = true)
    (hdue : s.tasks.isDue v = false) : R.Advancing settings i (v.toNat + 1) s := by
  refine ⟨h.le, h.below, fun w hw hrank => (h.next w hw hrank).imp_right ?_, h.quiet⟩
  intro ⟨hle, hturn⟩
  have hne : w.toNat ≠ v.toNat := by
    intro heq
    rw [UInt32.toNat_inj.1 heq, hdue] at hturn
    exact absurd (hturn hsel) Bool.false_ne_true
  exact ⟨by omega, hturn⟩

theorem Advancing.resting_updated {w : VertexId} (h : R.Advancing settings i v.toNat s)
    (hsettled : L.Settled settings v.toNat s) (hv : v.toNat < g.vertexCount)
    (hw : w.toNat < g.vertexCount) (hrank : R.rank w ≤ i) (hcase : w = v ∨ R.resting s.numbers w)
    (activity : Activity) :
    R.resting (s.updated settings v (step ⟨v, s.values.getD v.toNat default, g, s.slots⟩)
      activity).numbers w := by
  rw [Stage.numbers_updated (by rwa [hsettled.shaped.size_values])]
  exact R.resting_after (hsettled.shaped.shows hv) hsettled.sound hw
    (RestsBelow.mono h.below hrank) hcase

theorem Advancing.updated {activity : Activity} (h : R.Advancing settings i v.toNat s)
    (hsettled : L.Settled settings v.toNat s) (hv : v.toNat < g.vertexCount)
    (hok : (step ⟨v, s.values.getD v.toNat default, g, s.slots⟩).verdict = .ok activity) :
    R.Advancing settings i (v.toNat + 1)
      (s.updated settings v (step ⟨v, s.values.getD v.toNat default, g, s.slots⟩) activity) := by
  have hview := hsettled.shaped.shows hv
  obtain ⟨_, hcompletes, -⟩ := L.steps hview hsettled.sound
  refine ⟨h.le, fun w hw hrank => ?_, fun w hw hrank => ?_, fun hall => ?_⟩
  · exact h.resting_updated hsettled hv hw (Nat.le_of_lt hrank) (.inr (h.below w hw hrank)) _
  · have hrests := h.resting_updated hsettled hv hw (Nat.le_of_eq hrank)
    rcases eq_or_ne w v with heq | hne
    · exact .inl (hrests (.inl heq) _)
    rcases h.next w hw hrank with hbefore | ⟨hle, hturn⟩
    · exact .inl (hrests (.inr hbefore) _)
    · have hnat : w.toNat ≠ v.toNat := fun heq => hne (UInt32.toNat_inj.1 heq)
      refine .inr ⟨by omega, fun hsel => ?_⟩
      simp only [Stage.updated, if_pos hsel]
      exact Tasks.isDue_grantAll hcompletes.keeps ((Tasks.isDue_take hne).trans (hturn hsel))
  · -- With no rank left there is nothing to change.
    have hquiet := R.quiet hview hsettled.sound (RestsBelow.all h.below hall)
    obtain rfl : activity = .quiet := Except.ok.inj (hok.symm.trans hquiet)
    exact h.quiet hall

theorem Advancing.visit (h : R.Advancing settings i v.toNat s) (hs : s.InIteration g (i + 1))
    (hi : i + 1 < 4294967296) (hsettled : L.Settled settings v.toNat s)
    (hv : v.toNat < g.vertexCount) :
    Yields (s.visit (ofTurns start step) settings g v) fails
      (R.Advancing settings i (v.toNat + 1)) := by
  obtain ⟨_, hcompletes, -⟩ := L.steps (hsettled.shaped.shows hv) hsettled.sound
  refine Stage.visit_yields h.skip (fun fault hfault => ?_) fun activity _ hok => ?_
  · rw [updateOf_step hs (Nat.succ_pos i) hi, hcompletes.verdict] at hfault
    cases hfault
  · rw [updateOf_step hs (Nat.succ_pos i) hi] at hok ⊢
    exact h.updated hsettled hv hok

/-- Each iteration brings another rank to rest. -/
theorem Advancing.below_succ (h : R.Advancing settings i g.vertexCount s) :
    R.RestsBelow g (i + 1) s.numbers := by
  intro v hv hrank
  rcases Nat.lt_or_eq_of_le (Nat.le_of_lt_succ hrank) with hlt | heq
  · exact h.below v hv hlt
  · exact (h.next v hv heq).resolve_right fun hawaits => absurd hawaits.1 (Nat.not_le.2 hv)

/-! ## Whole runs -/

/-- What holds in iteration `i` when the vertices below `k` have had their turn. -/
inductive Progress (R : L.Ranked) (settings : Settings) (i k : Nat)
    (s : Stage Unit UInt32 UInt32) : Prop where
  | starting (hi : i = 0) (h : L.Starting settings k s)
  | advancing {m : Nat} (hi : i = m + 1) (hsettled : L.Settled settings k s)
    (h : R.Advancing settings m k s)

theorem Progress.visit (h : R.Progress settings i v.toNat s) (hs : s.InIteration g i)
    (hi : i < 4294967296) (hn : g.vertexCount ≤ maxWord) (hv : v.toNat < g.vertexCount) :
    Yields (s.visit (ofTurns start step) settings g v) (fun _ => False)
      (R.Progress settings i (v.toNat + 1)) := by
  cases h with
  | starting hzero h =>
    subst hzero
    exact (h.visit hs hn hv).imp fun _ => .starting rfl
  | @advancing m hpos hsettled h =>
    subst hpos
    have hsettles : Yields _ (fun _ => False) _ :=
      hsettled.visit hs (Nat.succ_pos m) hi hn hv
    exact (hsettles.and (h.visit hs hi hsettled hv)).imp fun _ ⟨hsettled, h⟩ =>
      .advancing rfl hsettled h

theorem Progress.next {iteration : UInt32} (h : R.Progress settings i g.vertexCount s)
    (hs : s.InIteration g i) (hi : i < 4294967296)
    (hgoes : (s.close (ofTurns start step)).outcome? settings s.summary = none) :
    R.Progress settings (i + 1) 0 ((s.close (ofTurns start step)).enter iteration) := by
  cases h with
  | starting hzero h =>
    subst hzero
    have hnone : R.RestsBelow g 0 (s.close (ofTurns start step)).numbers :=
      fun _ _ hrank => absurd hrank (Nat.not_lt_zero _)
    exact .advancing rfl h.next (advancing_enter h.next (Nat.zero_le _) hnone)
  | @advancing m hpos hsettled h =>
    subst hpos
    have hchanged := hs.changed_ne_zero (Nat.succ_pos m) hi hgoes
    have hle : m + 1 ≤ g.vertexCount := Nat.not_le.1 fun hall => hchanged (h.quiet hall)
    exact .advancing rfl hsettled.next (advancing_enter hsettled.next hle h.below_succ)

theorem Progress.unasked (h : R.Progress settings i k s) : s.control.last = none := by
  cases h with
  | starting _ h => exact h.shaped.unasked
  | advancing _ hsettled _ => exact hsettled.shaped.unasked

/-- There are no more iterations than ranks to bring to rest, and the first and the last one. -/
theorem Progress.le (h : R.Progress settings i k s) : i ≤ g.vertexCount + 1 := by
  cases h with
  | starting hzero _ => omega
  | advancing hpos _ h =>
    have hle := h.le
    omega

theorem Progress.resting (h : R.Progress settings i k s) (hv : v.toNat < g.vertexCount)
    (hrank : R.rank v + 2 ≤ i) : R.resting s.numbers v := by
  cases h with
  | starting hzero _ => omega
  | advancing hpos _ h => exact h.below v hv (by omega)

private def progress (R : L.Ranked) (settings : Settings) (hn : g.vertexCount ≤ maxWord) :
    RunInvariant (ofTurns start step) settings g fun _ => False where
  between rounds s := R.Progress settings rounds.size 0 (s.enter (UInt32.ofNat rounds.size))
  during rounds k s := R.Progress settings rounds.size k s
  begins _ h := h
  entersWindow _ h := h
  leavesWindow _ h := h
  visits {rounds k s} hround hk hs h := by
    have hi := Nat.lt_trans hround settings.maxIterations.toNat_lt
    exact Stage.visit_ofNat (Nat.le_succ_of_le hn) hk h fun v hv h => h.visit hs hi hn hv
  ends {rounds s} hround hs h hgoes := by
    rw [Array.size_push]
    exact h.next hs (Nat.lt_trans hround settings.maxIterations.toNat_lt) hgoes

/-- How far a run with the given iteration ceiling has come. -/
structure Paced (R : L.Ranked) (limit : Nat) (run : Finished Unit UInt32 UInt32) : Prop where
  advanced : run.report.outcome = .converged ∨ ∀ {v : VertexId}, v.toNat < g.vertexCount →
    R.rank v + 2 ≤ limit → R.resting run.numbers v
  converges : g.vertexCount + 2 ≤ limit → run.report.outcome = .converged ∧
    run.report.iterations.toNat = run.report.rounds.size ∧
    run.report.rounds.size ≤ g.vertexCount + 2

private theorem Progress.stops (h : R.Progress settings rounds.size g.vertexCount s)
    (hround : rounds.size < settings.maxIterations.toNat)
    (hend : (s.close (ofTurns start step)).outcome? settings s.summary = some outcome) :
    R.Paced settings.maxIterations.toNat
      ((s.close (ofTurns start step)).finish g outcome (rounds.push s.summary)) := by
  have hceiling : settings.maxIterations.toNat < 4294967296 := settings.maxIterations.toNat_lt
  have hle := h.le
  have hsize : (rounds.push s.summary).size = rounds.size + 1 := Array.size_push ..
  have hunasked : (s.close (ofTurns start step)).control.last = none := h.unasked
  obtain ⟨rfl, -⟩ := Stage.outcome?_eq_some hunasked hend
  refine ⟨.inl rfl, fun hlimit => ⟨rfl, UInt32.toNat_ofNat_of_lt' ?_, ?_⟩⟩
  · show (rounds.push s.summary).size < 4294967296
    omega
  · show (rounds.push s.summary).size ≤ g.vertexCount + 2
    omega

private theorem Progress.atCeiling {iteration : UInt32}
    (h : R.Progress settings limit 0 (s.enter iteration)) :
    R.Paced limit (s.finish g .iterationLimit rounds) := by
  have hle := h.le
  refine ⟨.inr fun hv hrank => h.resting hv hrank, fun hlimit => ?_⟩
  omega

/-- How a run of a ranked relaxation with the given iteration ceiling ends. -/
structure Ended (R : L.Ranked) (limit : Nat) (run : Finished Unit UInt32 UInt32) : Prop
    extends L.Ended limit run, R.Paced limit run

/-- By the ceiling as many ranks have come to rest as it allows for, whatever the outcome. -/
theorem Ended.resting {run : Finished Unit UInt32 UInt32} (h : R.Ended limit run)
    (hv : v.toNat < g.vertexCount) (hrank : R.rank v + 2 ≤ limit) : R.resting run.numbers v := by
  rcases h.advanced with hconverged | hadvanced
  · exact resting_of_all_stable (h.sound (.inl hconverged)) (h.stable hconverged) hv
  · exact hadvanced hv hrank

/-- **How a run of a ranked relaxation ends**, from any values in the graph. -/
theorem run_yields (R : L.Ranked) (settings : Settings) (hn : g.vertexCount ≤ maxWord)
    (values slots : Array UInt32) (hvalues : values.size = g.vertexCount)
    (hslots : slots.size = g.edgeCount) :
    Yields ((ofTurns start step).run settings () ⟨g, values, slots⟩) (fun _ => False)
      (R.Ended settings.maxIterations.toNat) := by
  have hpaced : Yields ((ofTurns start step).run settings () ⟨g, values, slots⟩) (fun _ => False)
      (R.Paced settings.maxIterations.toNat) := by
    refine (progress R settings hn).yields (Nat.le_succ_of_le hn) ?_ ?_ ?_
    · exact .starting rfl (starting_enter hn hvalues hslots)
    · intro rounds s outcome hround _ h hend
      exact Progress.stops h hround hend
    · intro rounds s hsize h
      have hprogress : R.Progress settings rounds.size 0
          (s.enter (UInt32.ofNat rounds.size)) := h
      rw [hsize] at hprogress
      exact hprogress.atCeiling
  exact ((L.run_yields settings hn values slots hvalues hslots).and hpaced).imp
    fun _ ⟨hended, hpaced⟩ => ⟨hended, hpaced⟩

theorem exists_ended {l : EdgeList} {start step : View UInt32 UInt32 → Update Unit UInt32 UInt32}
    {L : Law l.graph start step} (R : L.Ranked) (settings : Settings)
    (hn : l.vertexCount ≤ maxWord) (hg : Adjacency.ofEdgeList l = .ok g) :
    ∃ run, (ofTurns start step).solve l settings = .ok ⟨run.report, run.graph.values⟩ ∧
      R.Ended settings.maxIterations.toNat run := by
  have hgraph : l.graph.vertexCount ≤ maxWord := by rwa [Adjacency.vertexCount_ofEdges]
  exact exists_solve hg (R.run_yields settings hgraph _ _ Array.size_replicate Array.size_replicate)

/-- **A ranked relaxation converges** within two iterations more than there are vertices, if the
ceiling allows for as many. -/
theorem exists_converged {l : EdgeList}
    {start step : View UInt32 UInt32 → Update Unit UInt32 UInt32} {L : Law l.graph start step}
    (R : L.Ranked) (hg : Adjacency.ofEdgeList l = .ok g)
    (hlimit : l.vertexCount + 2 ≤ settings.maxIterations.toNat) :
    ∃ found, (ofTurns start step).solve l settings = .ok found ∧
      found.report.outcome = .converged ∧
      found.report.iterations.toNat = found.report.rounds.size ∧
      found.report.rounds.size ≤ l.vertexCount + 2 := by
  have hcount : l.graph.vertexCount = l.vertexCount := Adjacency.vertexCount_ofEdges
  obtain ⟨run, hrun, hended⟩ := R.exists_ended settings (le_maxWord_of_ceiling hlimit) hg
  have hconverges := hended.converges
  rw [hcount] at hconverges
  exact ⟨_, hrun, hconverges hlimit⟩

end Law.Ranked

end VertexSweep.Relaxation
