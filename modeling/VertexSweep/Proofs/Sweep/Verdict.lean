import VertexSweep.Proofs.Sweep.Journal
import VertexSweep.Proofs.Sweep.Settling
import VertexSweep.Script.Program

/-!
# How a run ends, read off its report

Three conditions stop a run after a round: it was quiescent, it was halted, or it was idle. The
first and the last can be read off the summary of the round. For the second one has to know what
hooks asked for: `VertexProgram.overheard` is the program that remembers it, and
`VertexProgram.wishes` is what it remembers of a run. A report is truthful if its outcome is what
the conditions say of the last round and no earlier round satisfies any (`Report.Truthful`); every
report is (`VertexProgram.truthful_run`).

What a round says about halting does not change later on, since a wish only counts from the
iteration in which it was uttered. That is why the wishes of the whole run can be held against every
round.
-/

namespace VertexSweep

variable {σ V E : Type}

/-! ## What hooks ask for -/

/-- What a hook asked for. -/
structure Wish where
  /-- The iteration in which it asked. -/
  uttered : UInt32
  /-- The iteration after which the run was to end. -/
  last : UInt32
deriving DecidableEq, Repr

def Hook.overheard (hook : Hook σ) : Hook (σ × List Wish) := fun control state =>
  (((hook control state.1).1,
      state.2 ++ ((hook control state.1).2.map (Wish.mk control.iteration)).toList),
    (hook control state.1).2)

/-- The program that remembers what its hooks ask for. -/
def VertexProgram.overheard (program : VertexProgram σ V E) :
    VertexProgram (σ × List Wish) V E where
  update context state view :=
    let u := program.update context state.1 view
    { state := (u.state, state.2)
      view := u.view
      requests := u.requests
      verdict := u.verdict }
  beforeIteration := program.beforeIteration.overheard
  afterIteration round := (program.afterIteration round).overheard
  beforeWindow w := (program.beforeWindow w).overheard
  afterWindow w := (program.afterWindow w).overheard

theorem VertexProgram.overheard_projects (program : VertexProgram σ V E) :
    program.overheard.Projects Prod.fst program where
  update _ _ _ := rfl
  beforeIteration _ _ := rfl
  afterIteration _ _ _ := rfl
  beforeWindow _ _ _ := rfl
  afterWindow _ _ _ := rfl

/-- What hooks ask for in a run, in the order in which they do. -/
def VertexProgram.wishes [Inhabited V] (program : VertexProgram σ V E) (settings : Settings)
    (state : σ) (graph : DataGraph V E) : List Wish :=
  match program.overheard.run settings (state, []) graph with
  | .ok run => run.state.2
  | .error stop => stop.state.2

/-! ## What stops a run -/

namespace RoundSummary

variable {settings : Settings} {wishes : List Wish} {round : RoundSummary}

/-- Nothing was changed, and this is not the first round. -/
def IsQuiescent (round : RoundSummary) : Prop := 0 < round.iteration ∧ round.changed = 0

/-- Some hook has asked by now for an end that is due by now. -/
def IsHalted (wishes : List Wish) (round : RoundSummary) : Prop :=
  ∃ wish ∈ wishes, wish.uttered ≤ round.iteration ∧ wish.last ≤ round.iteration

/-- The run is selective and nothing was requested for the next round. -/
def IsIdle (settings : Settings) (round : RoundSummary) : Prop :=
  settings.selective = true ∧ round.scheduledNext = 0

/-- Some condition stops the run after this round. -/
def Stops (settings : Settings) (wishes : List Wish) (round : RoundSummary) : Prop :=
  round.IsQuiescent ∨ round.IsHalted wishes ∨ round.IsIdle settings

instance : Decidable round.IsQuiescent := inferInstanceAs (Decidable (_ ∧ _))

instance : Decidable (round.IsHalted wishes) := inferInstanceAs (Decidable (∃ wish ∈ wishes, _))

instance : Decidable (round.IsIdle settings) := inferInstanceAs (Decidable (_ ∧ _))

/-- What the conditions make of a round; quiescence goes before a halt, and a halt before
idleness. -/
def Meets (settings : Settings) (wishes : List Wish) (round : RoundSummary) :
    Option Outcome → Prop
  | none => ¬ round.Stops settings wishes
  | some .converged => round.IsQuiescent ∨ (round.IsIdle settings ∧ ¬ round.IsHalted wishes)
  | some .halted => ¬ round.IsQuiescent ∧ round.IsHalted wishes
  | some .iterationLimit => False

namespace Meets

variable {outcome : Outcome}

theorem converged_iff (h : round.Meets settings wishes outcome) : outcome = .converged ↔
    round.IsQuiescent ∨ (round.IsIdle settings ∧ ¬ round.IsHalted wishes) := by
  cases outcome with
  | converged => exact iff_of_true rfl h
  | halted => exact iff_of_false (by simp) (not_or.2 ⟨h.1, fun hidle => hidle.2 h.2⟩)
  | iterationLimit => exact h.elim

theorem halted_iff (h : round.Meets settings wishes outcome) :
    outcome = .halted ↔ ¬ round.IsQuiescent ∧ round.IsHalted wishes := by
  cases outcome with
  | converged =>
    refine iff_of_false (by simp) fun ⟨hbusy, hhalt⟩ => ?_
    exact h.elim hbusy fun hidle => hidle.2 hhalt
  | halted => exact iff_of_true rfl h
  | iterationLimit => exact h.elim

theorem ne_iterationLimit (h : round.Meets settings wishes outcome) :
    outcome ≠ .iterationLimit := by
  rintro rfl
  exact h

theorem stops (h : round.Meets settings wishes outcome) : round.Stops settings wishes := by
  cases outcome with
  | converged => exact h.imp id fun hidle => .inr hidle.1
  | halted => exact .inr (.inl h.2)
  | iterationLimit => exact h.elim

end Meets

/-- A wish does not count in rounds before the one in which it was uttered. -/
theorem isHalted_append {wish : Wish} (h : round.iteration < wish.uttered) :
    round.IsHalted (wishes ++ [wish]) ↔ round.IsHalted wishes := by
  have hlate : ¬ wish.uttered ≤ round.iteration := UInt32.not_le.2 h
  simp [IsHalted, or_and_right, exists_or, hlate]

end RoundSummary

/-- A report of a run with the given wishes that tells how it ended. -/
structure Report.Truthful (settings : Settings) (wishes : List Wish) (r : Report) : Prop where
  iterations : r.iterations.toNat = r.rounds.size
  size_le : r.rounds.size ≤ settings.maxIterations.toNat
  iteration : ∀ i, (h : i < r.rounds.size) → r.rounds[i].iteration.toNat = i
  goesOn : ∀ i, (h : i + 1 < r.rounds.size) → ¬ r.rounds[i].Stops settings wishes
  converged_iff : r.outcome = .converged ↔ ∃ last, r.rounds.back? = some last ∧
    (last.IsQuiescent ∨ (last.IsIdle settings ∧ ¬ last.IsHalted wishes))
  halted_iff : r.outcome = .halted ↔ ∃ last, r.rounds.back? = some last ∧
    ¬ last.IsQuiescent ∧ last.IsHalted wishes
  limit_iff : r.outcome = .iterationLimit ↔
    ¬ ∃ last, r.rounds.back? = some last ∧ last.Stops settings wishes
  limit : r.outcome = .iterationLimit → r.iterations = settings.maxIterations

/-! ## A run and what was asked so far -/

namespace Control

variable {c : Control} {n : UInt32}

/-- Of all wishes the earliest one decides, whatever the order in which they come. -/
theorem endsAfter_heed {wish : Option UInt32} : (c.heed wish).endsAfter n = true ↔
    c.endsAfter n = true ∨ ∃ last ∈ wish, last ≤ n := by
  cases wish with
  | none => simp [heed]
  | some last =>
    cases hlast : c.last with
    | none => simp [heed, endAfter, endsAfter, hlast]
    | some earlier =>
      have hmin : min earlier last ≤ n ↔ earlier ≤ n ∨ last ≤ n := Std.min_le
      simp [heed, endAfter, endsAfter, hlast, hmin]

end Control

/-- A schedule is idle in the next sweep if and only if nothing is pending now. -/
theorem Tasks.isActive_advance {t : Tasks} : t.advance.isActive = false ↔ t.pending = 0 := by
  have hnone : t.next.isEmpty = true ↔ t.next.size = 0 := by
    rw [IdSet.isEmpty_iff, IdSet.size_eq, List.length_eq_zero_iff, List.eq_nil_iff_forall_not_mem]
    simp
  simpa [isActive, advance, pending] using hnone

namespace Stage

variable {program : VertexProgram σ V E} {settings : Settings} {g : Adjacency}
  {rounds : Array RoundSummary} {s : Stage (σ × List Wish) V E}

/-- A run that none of its rounds has stopped, with a control that knows every wish; all of them
were uttered before iteration `i`. -/
structure Heard (settings : Settings) (rounds : Array RoundSummary) (i : Nat)
    (s : Stage (σ × List Wish) V E) : Prop where
  iteration : ∀ i, (h : i < rounds.size) → rounds[i].iteration.toNat = i
  goesOn : ∀ round ∈ rounds, ¬ round.Stops settings s.state.2
  endsAfter_iff : ∀ n, s.control.endsAfter n = true ↔ ∃ wish ∈ s.state.2, wish.last ≤ n
  uttered_lt : ∀ wish ∈ s.state.2, wish.uttered.toNat < i

/-- The same in the iteration after these rounds. -/
structure Hearing (settings : Settings) (rounds : Array RoundSummary)
    (s : Stage (σ × List Wish) V E) : Prop extends s.Heard settings rounds (rounds.size + 1) where
  now : s.control.iteration.toNat = rounds.size

namespace Hearing

theorem lt_of_mem (h : s.Hearing settings rounds) {round : RoundSummary} (hmem : round ∈ rounds) :
    round.iteration < s.control.iteration := by
  obtain ⟨i, hi, rfl⟩ := Array.mem_iff_getElem.1 hmem
  rw [UInt32.lt_iff_toNat_lt, h.iteration i hi, h.now]
  exact hi

/-- What a hook asks for is heard, and says nothing about earlier rounds. -/
theorem run (h : s.Hearing settings rounds) (hook : Hook σ) :
    (s.run hook.overheard).Hearing settings rounds where
  iteration := h.iteration
  goesOn round hmem := by
    show ¬ round.Stops settings (s.state.2 ++ Option.toList _)
    cases (hook s.control s.state.1).2 with
    | none => simpa using h.goesOn round hmem
    | some last =>
      have hlate : round.IsHalted (s.state.2 ++ [⟨s.control.iteration, last⟩]) ↔
          round.IsHalted s.state.2 := RoundSummary.isHalted_append (h.lt_of_mem hmem)
      simpa [RoundSummary.Stops, hlate] using h.goesOn round hmem
  endsAfter_iff n := by
    show (s.control.heed (hook s.control s.state.1).2).endsAfter n = true ↔
      ∃ wish ∈ s.state.2 ++ Option.toList _, wish.last ≤ n
    rw [Control.endsAfter_heed, h.endsAfter_iff]
    cases (hook s.control s.state.1).2 <;> simp [or_and_right, exists_or]
  uttered_lt wish hmem := by
    rcases List.mem_append.1 hmem with hold | hnew
    · exact h.uttered_lt wish hold
    · obtain ⟨last, -, rfl⟩ := Option.map_eq_some_iff.1 (Option.mem_toList.1 hnew)
      exact Nat.lt_succ_of_le (Nat.le_of_eq h.now)
  now := by
    rw [← h.now]
    exact congrArg UInt32.toNat Control.iteration_heed

/-- Updates are not heard. -/
theorem visit [Inhabited V] (h : s.Hearing settings rounds) (v : VertexId) :
    Yields (s.visit program.overheard settings g v) (fun _ => True) (Hearing settings rounds) :=
  visit_yields (fun _ _ => h) (fun _ _ => trivial) fun _ _ _ =>
    ⟨⟨h.iteration, h.goesOn, h.endsAfter_iff, h.uttered_lt⟩, h.now⟩

theorem sweep [Inhabited V] (h : s.Hearing settings rounds) (w : Window) :
    Yields (s.sweep program.overheard settings g w) (fun _ => True) (Hearing settings rounds) :=
  (Yields.foldlM (fun v _ _ h => h.visit v) (h.run _)).bind fun _ h => h.run _

/-- The hook at the end of the iteration is heard too. -/
theorem afterwards (h : s.Hearing settings rounds) (program : VertexProgram σ V E) :
    (s.close program.overheard).Heard settings rounds (rounds.size + 1) :=
  have hrun := h.run (program.afterIteration s.summary)
  ⟨hrun.iteration, hrun.goesOn, hrun.endsAfter_iff, hrun.uttered_lt⟩

/-- The run ends, or goes on, as the summary and the wishes say. -/
theorem meets_outcome? (h : s.Hearing settings rounds) (program : VertexProgram σ V E) :
    s.summary.Meets settings (s.close program.overheard).state.2
      ((s.close program.overheard).outcome? settings s.summary) := by
  have hclose := h.afterwards program
  have hquiet : s.summary.converged = true ↔ s.summary.IsQuiescent := converged_summary
  have hhalt : (s.close program.overheard).control.endsAfter s.summary.iteration = true ↔
      s.summary.IsHalted (s.close program.overheard).state.2 := by
    rw [hclose.endsAfter_iff]
    refine exists_congr fun wish => and_congr_right fun hmem => (and_iff_right ?_).symm
    rw [UInt32.le_iff_toNat_le]
    exact h.now ▸ Nat.le_of_lt_succ (hclose.uttered_lt wish hmem)
  have hidle : (settings.selective && !(s.close program.overheard).tasks.isActive) = true ↔
      s.summary.IsIdle settings := by
    rw [Bool.and_eq_true, Bool.not_eq_true']
    exact and_congr_right fun _ => Tasks.isActive_advance
  unfold outcome?
  simp only [hquiet, hhalt, hidle]
  split
  · exact .inl ‹_›
  split
  · exact ⟨‹_›, ‹_›⟩
  split
  · exact .inr ⟨‹_›, ‹_›⟩
  · exact not_or.2 ⟨‹_›, not_or.2 ⟨‹_›, ‹_›⟩⟩

/-- The rounds are numbered, this one included. -/
theorem iteration_push (h : s.Hearing settings rounds) {i : Nat}
    (hi : i < (rounds.push s.summary).size) :
    (rounds.push s.summary)[i].iteration.toNat = i := by
  rw [Array.getElem_push]
  split
  · exact h.iteration i _
  · rw [Array.size_push] at hi
    show s.control.iteration.toNat = i
    rw [h.now]
    omega

/-- A round that does not stop the run is one more of them. -/
theorem close (h : s.Hearing settings rounds)
    (hnone : (s.close program.overheard).outcome? settings s.summary = none) :
    (s.close program.overheard).Heard settings (rounds.push s.summary)
      (rounds.push s.summary).size where
  iteration _ := h.iteration_push
  goesOn round hmem := by
    rcases Array.mem_push.1 hmem with hold | rfl
    · exact (h.afterwards program).goesOn round hold
    · have hmeets := h.meets_outcome? program
      rwa [hnone] at hmeets
  endsAfter_iff := (h.afterwards program).endsAfter_iff
  uttered_lt wish hmem := by
    rw [Array.size_push]
    exact (h.afterwards program).uttered_lt wish hmem

end Hearing

theorem Heard.iterate [Inhabited V] {ws : List Window} (h : s.Heard settings rounds rounds.size)
    (hround : rounds.size < settings.maxIterations.toNat) :
    Yields (s.iterate program.overheard settings g ws (UInt32.ofNat rounds.size)) (fun _ => True)
      fun out => ∃ s' : Stage (σ × List Wish) V E,
        out = (s'.summary, s'.close program.overheard) ∧ s'.Hearing settings rounds := by
  have henter : (s.enter (UInt32.ofNat rounds.size)).Hearing settings rounds :=
    ⟨⟨h.iteration, h.goesOn, h.endsAfter_iff,
      fun wish hmem => Nat.lt_succ_of_lt (h.uttered_lt wish hmem)⟩,
      UInt32.toNat_ofNat_of_lt' (Nat.lt_trans hround settings.maxIterations.toNat_lt)⟩
  rw [iterate_eq]
  exact (Yields.foldlM (fun w _ _ h => h.sweep w) (henter.run _)).bind fun s' hs' => ⟨s', rfl, hs'⟩

end Stage

/-! ## Whole runs -/

namespace Report.Truthful

variable {settings : Settings} {wishes : List Wish} {rounds : Array RoundSummary}

/-- A run that none of its rounds has stopped ends at the ceiling. -/
theorem of_ceiling (hsize : rounds.size = settings.maxIterations.toNat)
    (hiteration : ∀ i, (h : i < rounds.size) → rounds[i].iteration.toNat = i)
    (hgoesOn : ∀ round ∈ rounds, ¬ round.Stops settings wishes) :
    Truthful settings wishes ⟨.iterationLimit, UInt32.ofNat rounds.size, rounds⟩ := by
  have hnone : ∀ last, rounds.back? = some last → ¬ last.Stops settings wishes :=
    fun last hlast => hgoesOn last (Array.mem_of_back? hlast)
  have hword : UInt32.ofNat rounds.size = settings.maxIterations := by
    rw [hsize]
    exact UInt32.ofNat_toNat
  refine ⟨?_, Nat.le_of_eq hsize, hiteration, fun i h => hgoesOn _ (Array.getElem_mem _),
    ?_, ?_, ?_, fun _ => hword⟩
  · rw [hword, hsize]
  · refine iff_of_false (by simp) fun ⟨last, hlast, hstop⟩ => hnone last hlast ?_
    exact hstop.imp id fun hidle => .inr hidle.1
  · exact iff_of_false (by simp) fun ⟨last, hlast, _, hhalt⟩ =>
      hnone last hlast (.inr (.inl hhalt))
  · exact iff_of_true rfl fun ⟨last, hlast, hstop⟩ => hnone last hlast hstop

/-- A run that its last round has stopped ends as that round says. -/
theorem of_meets {last : RoundSummary} {outcome : Outcome}
    (hsize : rounds.size < settings.maxIterations.toNat)
    (hiteration : ∀ i, (h : i < (rounds.push last).size) →
      (rounds.push last)[i].iteration.toNat = i)
    (hgoesOn : ∀ round ∈ rounds, ¬ round.Stops settings wishes)
    (hmeets : last.Meets settings wishes outcome) :
    Truthful settings wishes
      ⟨outcome, UInt32.ofNat (rounds.push last).size, rounds.push last⟩ := by
  have hback : (rounds.push last).back? = some last := Array.back?_push
  have hle : (rounds.push last).size ≤ settings.maxIterations.toNat := by
    rw [Array.size_push]
    exact hsize
  refine ⟨?_, hle, hiteration, ?_, ?_, ?_, ?_, fun hlimit => absurd hlimit hmeets.ne_iterationLimit⟩
  · exact UInt32.toNat_ofNat_of_lt' (Nat.lt_of_le_of_lt hle settings.maxIterations.toNat_lt)
  · intro i h
    have hi : i < rounds.size := by
      rw [Array.size_push] at h
      omega
    rw [Array.getElem_push_lt hi]
    exact hgoesOn _ (Array.getElem_mem hi)
  · simpa [hback] using hmeets.converged_iff
  · simpa [hback] using hmeets.halted_iff
  · exact iff_of_false hmeets.ne_iterationLimit fun hnone => hnone ⟨last, hback, hmeets.stops⟩

end Report.Truthful

theorem Stage.Heard.runFrom [Inhabited V] {program : VertexProgram σ V E} {settings : Settings}
    {g : Adjacency} {ws : List Window} (left : Nat) {rounds : Array RoundSummary}
    {s : Stage (σ × List Wish) V E} (h : s.Heard settings rounds rounds.size)
    (hleft : rounds.size + left = settings.maxIterations.toNat) :
    Yields (s.runFrom program.overheard settings g ws rounds (UInt32.ofNat rounds.size) left)
      (fun _ => True) fun run => run.report.Truthful settings run.state.2 ∧
        ∀ wish ∈ run.state.2, wish.uttered.toNat < run.report.rounds.size := by
  refine Stage.runFrom_yields (I := fun rounds s => s.Heard settings rounds rounds.size) ?_ ?_
    left hleft h
  · intro rounds s hround h
    refine (h.iterate hround).imp ?_
    rintro _ ⟨s', rfl, hs'⟩
    have hclose := hs'.afterwards program
    have hmeets := hs'.meets_outcome? program
    refine ⟨fun outcome hend => ⟨?_, fun wish hmem => ?_⟩, hs'.close⟩
    · rw [hend] at hmeets
      exact .of_meets hround (fun _ => hs'.iteration_push) hclose.goesOn hmeets
    · show wish.uttered.toNat < (rounds.push s'.summary).size
      rw [Array.size_push]
      exact hclose.uttered_lt wish hmem
  · intro rounds s hsize h
    exact ⟨.of_ceiling hsize h.iteration h.goesOn, h.uttered_lt⟩

namespace VertexProgram

variable [Inhabited V] {program : VertexProgram σ V E} {settings : Settings} {state : σ}
  {graph : DataGraph V E}

theorem overheard_yields (program : VertexProgram σ V E) (settings : Settings) (state : σ)
    (graph : DataGraph V E) : Yields (program.overheard.run settings (state, []) graph)
    (fun _ => True) fun run => run.report.Truthful settings run.state.2 ∧
      ∀ wish ∈ run.state.2, wish.uttered.toNat < run.report.rounds.size := by
  refine Stage.Heard.runFrom _ ⟨?_, ?_, ?_, ?_⟩ (Nat.zero_add _)
  · exact fun i hi => absurd hi (Nat.not_lt_zero i)
  · simp
  · simp [Control.endsAfter]
  · simp

theorem overheard_of_ok {run : Finished σ V E} (h : program.run settings state graph = .ok run) :
    run.report.Truthful settings (program.wishes settings state graph) ∧
      ∀ wish ∈ program.wishes settings state graph,
        wish.uttered.toNat < run.report.rounds.size := by
  have hrun := program.overheard_projects.run settings (state, []) graph
  have hyields := overheard_yields program settings state graph
  rw [h] at hrun
  unfold wishes
  cases hres : program.overheard.run settings (state, []) graph with
  | error stop =>
    rw [hres] at hrun
    cases hrun
  | ok run' =>
    rw [hres] at hrun hyields
    cases hrun
    exact hyields

/-- **Every report tells how its run ended**, whatever the program, its hooks, the graph and the
settings. -/
theorem truthful_run {run : Finished σ V E} (h : program.run settings state graph = .ok run) :
    run.report.Truthful settings (program.wishes settings state graph) :=
  (overheard_of_ok h).1

/-- Vertex 0 counts as changed in every iteration and is visited again. The hook before iteration 0
asks for an end after iteration 5, the one before the first window of iteration 2 for an end after
iteration 1, which is over. -/
def belated : Script.Source where
  rules := [{ iteration := .any, vertex := .only 0, actions := [.changed, .task .id false] }]
  hooks := [
    { point := .beforeIteration, iteration := .only 0, start := .any, last := 5 },
    { point := .beforeWindow, iteration := .only 2, start := .only 0, last := 1 }]

theorem truthful_run_belated : ∃ run : Finished Script.Log UInt32 UInt32,
    belated.program.run { selective := true, intervalSize := 2 } #[]
        (.ofAdjacency (.ofEdges 3 #[])) = .ok run ∧
      run.report.outcome = .halted ∧
      run.report.rounds.map (·.visited) = #[3, 1, 1] ∧
      belated.program.wishes { selective := true, intervalSize := 2 } #[]
        (.ofAdjacency (.ofEdges 3 #[])) = [⟨0, 5⟩, ⟨2, 1⟩] ∧
      run.report.Truthful { selective := true, intervalSize := 2 } [⟨0, 5⟩, ⟨2, 1⟩] := by
  have hwishes : belated.program.wishes { selective := true, intervalSize := 2 } #[]
      (.ofAdjacency (.ofEdges 3 #[])) = [⟨0, 5⟩, ⟨2, 1⟩] := by decide +kernel
  obtain ⟨run, hrun, htest⟩ := Yields.exists_ok_of_any
    (x := belated.program.run { selective := true, intervalSize := 2 } #[]
      (.ofAdjacency (.ofEdges 3 #[])))
    (f := fun run => run.report.outcome = .halted ∧
      run.report.rounds.map (·.visited) = #[3, 1, 1]) (by decide +kernel)
  obtain ⟨houtcome, hvisited⟩ := of_decide_eq_true htest
  exact ⟨run, hrun, houtcome, hvisited, hwishes, hwishes ▸ truthful_run hrun⟩

end VertexProgram

end VertexSweep
