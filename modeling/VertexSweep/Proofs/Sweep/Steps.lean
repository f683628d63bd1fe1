import VertexSweep.Proofs.Sweep.Trace

/-!
# Runs as chains of iterations

What one iteration does to a stage, told by a relation between the stage before it, the summary and
the stage after it, is told of a whole run by `Stage.Linked`: the stages of the trace are linked by
the rounds of the report. `Stage.iterate_keeps` finds what an iteration does from what each turn
keeps, if it does not matter whose turn it is; `VertexProgram.run_linked` makes the chain.
-/

namespace VertexSweep

variable {σ V E : Type}

namespace Stage

variable {program : VertexProgram σ V E} {settings : Settings} {g : Adjacency}
  {fails : Aborted σ V E → Prop} {ws : List Window} {s s' first last : Stage σ V E} {i k : Nat}
  {stages : List (Stage σ V E)} {rounds : List RoundSummary} {round : RoundSummary}
  {step : Nat → Stage σ V E → RoundSummary → Stage σ V E → Prop}

/-! ## Chains -/

/-- Each stage but the last is taken to the next one by an iteration, the first of which has the
number `i`, with the summary that stands at the same place. -/
inductive Linked (step : Nat → Stage σ V E → RoundSummary → Stage σ V E → Prop) :
    Nat → List (Stage σ V E) → List RoundSummary → Prop
  | last (i : Nat) (s : Stage σ V E) : Linked step i [s] []
  | cons {i : Nat} {s : Stage σ V E} {round : RoundSummary} {s' : Stage σ V E}
      {stages : List (Stage σ V E)} {rounds : List RoundSummary} (h : step i s round s')
      (rest : Linked step (i + 1) (s' :: stages) rounds) :
      Linked step i (s :: s' :: stages) (round :: rounds)

namespace Linked

theorem length_eq (h : Linked step i stages rounds) : stages.length = rounds.length + 1 := by
  induction h with
  | last => rfl
  | cons _ _ ih => exact congrArg Nat.succ ih

theorem step_of_getElem? (h : Linked step i stages rounds) (hs : stages[k]? = some s)
    (hs' : stages[k + 1]? = some s') (hround : rounds[k]? = some round) :
    step (i + k) s round s' := by
  induction h generalizing k with
  | last => cases hround
  | @cons i _ _ _ _ _ hstep _ ih =>
    cases k with
    | zero =>
      cases hs
      cases hs'
      cases hround
      exact hstep
    | succ k =>
      have hrest := ih hs hs' hround
      rwa [Nat.add_right_comm, Nat.add_assoc] at hrest

/-- What every iteration keeps holds at the end. -/
theorem keeps {I : Nat → Stage σ V E → Prop} (h : Linked step i stages rounds)
    (hkeeps : ∀ {i s round s'}, I i s → step i s round s' → I (i + 1) s')
    (hfirst : stages.head? = some first) (hstart : I i first)
    (hlast : stages.getLast? = some last) : I (i + rounds.length) last := by
  induction h generalizing first with
  | last =>
    cases hfirst
    cases hlast
    exact hstart
  | @cons i _ _ _ stages rounds hstep _ ih =>
    cases hfirst
    have hend := ih rfl (hkeeps hstart hstep) (by rwa [List.getLast?_cons_cons] at hlast)
    rwa [Nat.add_right_comm, Nat.add_assoc] at hend

end Linked

variable [Inhabited V]

/-! ## One iteration -/

/-- What the hooks and every turn keep holds when the sweep has ended. -/
theorem iterate_keeps {J : Stage σ V E → Prop} {iteration : UInt32}
    (begins : J ((s.enter iteration).run program.beforeIteration))
    (entersWindow : ∀ w {s}, J s → J (s.run (program.beforeWindow w)))
    (leavesWindow : ∀ w {s}, J s → J (s.run (program.afterWindow w)))
    (visits : ∀ v {s}, J s → Yields (s.visit program settings g v) fails J) :
    Yields (s.iterate program settings g ws iteration) fails fun out =>
      ∃ s', out = (s'.summary, s'.close program) ∧ J s' := by
  have hsweep : ∀ w s, J s → Yields (sweep program settings g s w) fails J := by
    intro w s hs
    refine Yields.bind (Yields.foldlM (fun v _ s => visits v) (entersWindow w hs)) ?_
    exact fun s' => leavesWindow w
  rw [iterate_eq]
  exact (Yields.foldlM (fun w _ => hsweep w) begins).bind fun s' hs' => ⟨s', rfl, hs'⟩

/-! ## Whole runs -/

theorem exists_trace_eq_cons (program : VertexProgram σ V E) (settings : Settings) (g : Adjacency)
    (ws : List Window) (s : Stage σ V E) (iteration : UInt32) (left : Nat) :
    ∃ later, s.trace program settings g ws iteration left = s :: later := by
  cases left <;> exact ⟨_, rfl⟩

/-- A run links its stages by what its iterations do. -/
theorem runFrom_linked {I : Nat → Stage σ V E → Prop}
    (hkeeps : ∀ {i s round s'}, I i s → step i s round s' → I (i + 1) s')
    (iterates : ∀ {i s}, i < settings.maxIterations.toNat → I i s →
      Yields (s.iterate program settings g ws (UInt32.ofNat i)) fails fun out =>
        step i s out.1 out.2)
    (left : Nat) {rounds : Array RoundSummary}
    (hleft : rounds.size + left = settings.maxIterations.toNat) (h : I rounds.size s) :
    Yields (s.runFrom program settings g ws rounds (UInt32.ofNat rounds.size) left) fails fun run =>
      ∃ rest, run.report.rounds.toList = rounds.toList ++ rest ∧
        Linked step rounds.size
          (s.trace program settings g ws (UInt32.ofNat rounds.size) left) rest := by
  induction left generalizing rounds s with
  | zero => exact ⟨[], (List.append_nil _).symm, .last _ s⟩
  | succ left ih =>
    have hiterate := iterates (by omega) h
    cases hres : s.iterate program settings g ws (UInt32.ofNat rounds.size) with
    | error aborted =>
      rw [hres] at hiterate
      rw [runFrom_of_error hres]
      exact hiterate
    | ok out =>
      obtain ⟨round, s'⟩ := out
      have hstep : step rounds.size s round s' := hiterate.of_eq_ok hres
      have hpushed : (rounds.push round).toList = rounds.toList ++ [round] := Array.toList_push
      cases hend : s'.outcome? settings round with
      | some outcome =>
        rw [runFrom_of_some hres hend, trace_of_some hres hend]
        exact ⟨[round], hpushed, .cons hstep (.last _ s')⟩
      | none =>
        rw [runFrom_of_none hres hend, trace_of_none hres hend]
        have hsize : (rounds.push round).size = rounds.size + 1 := Array.size_push ..
        refine (ih (by omega) (hsize ▸ hkeeps h hstep)).imp fun run hrun => ?_
        obtain ⟨rest, hrounds, hlinked⟩ := hrun
        obtain ⟨later, hlater⟩ := exists_trace_eq_cons program settings g ws s'
          (UInt32.ofNat (rounds.push round).size) left
        rw [hlater, hsize] at hlinked
        rw [hlater]
        refine ⟨round :: rest, ?_, .cons hstep hlinked⟩
        rw [hrounds, hpushed, List.append_assoc]
        rfl

end Stage

theorem VertexProgram.head?_trace [Inhabited V] {program : VertexProgram σ V E}
    {settings : Settings} {g : Adjacency} {state : σ} {values : Array V} {slots : Array E} :
    (program.trace settings state ⟨g, values, slots⟩).head? =
      some { state, values, slots, tasks := (Tasks.ofVertexCount g.vertexCount).addAll } := by
  obtain ⟨later, hlater⟩ := Stage.exists_trace_eq_cons program settings g
    (windows g.vertexCount settings.intervalSize)
    { state, values, slots, tasks := (Tasks.ofVertexCount g.vertexCount).addAll } 0
    settings.maxIterations.toNat
  exact congrArg List.head? hlater

/-- **A run is a chain of iterations.** Its rounds link the stages of its trace, the last of which
is where it ended, and what every iteration keeps holds there. -/
theorem VertexProgram.run_linked [Inhabited V] {program : VertexProgram σ V E} {settings : Settings}
    {g : Adjacency} {state : σ} {values : Array V} {slots : Array E}
    {fails : Aborted σ V E → Prop} {step : Nat → Stage σ V E → RoundSummary → Stage σ V E → Prop}
    {I : Nat → Stage σ V E → Prop}
    (hkeeps : ∀ {i s round s'}, I i s → step i s round s' → I (i + 1) s')
    (iterates : ∀ {i s}, i < settings.maxIterations.toNat → I i s →
      Yields (s.iterate program settings g (windows g.vertexCount settings.intervalSize)
        (UInt32.ofNat i)) fails fun out => step i s out.1 out.2)
    (start : I 0 { state, values, slots, tasks := (Tasks.ofVertexCount g.vertexCount).addAll }) :
    Yields (program.run settings state ⟨g, values, slots⟩) fails fun run =>
      Stage.Linked step 0 (program.trace settings state ⟨g, values, slots⟩)
          run.report.rounds.toList ∧
        ∃ last, (program.trace settings state ⟨g, values, slots⟩).getLast? = some last ∧
          run = last.finish g run.report.outcome run.report.rounds ∧
          I run.report.rounds.size last := by
  have hlinked : Yields (program.run settings state ⟨g, values, slots⟩) fails fun run =>
      ∃ rest, run.report.rounds.toList = rest ∧
        Stage.Linked step 0 (program.trace settings state ⟨g, values, slots⟩) rest :=
    Stage.runFrom_linked hkeeps iterates settings.maxIterations.toNat (Nat.zero_add _) start
  cases hrun : program.run settings state ⟨g, values, slots⟩ with
  | error aborted =>
    rw [hrun] at hlinked
    exact hlinked
  | ok run =>
    obtain ⟨_, rfl, hlinked⟩ := hlinked.of_eq_ok hrun
    obtain ⟨-, last, hlast, hfinish⟩ := getLast?_trace hrun
    have hend := hlinked.keeps hkeeps head?_trace start hlast
    rw [Nat.zero_add, Array.length_toList] at hend
    exact ⟨hlinked, last, hlast, hfinish, hend⟩

end VertexSweep
