import VertexSweep.Proofs.Sweep.Invariant

/-!
# Coupled runs

Two runs on graphs with the same vertices can be followed in step, be they of one program or of two.
`Agree` says that two computations end in the same way, with related values or with related errors.
A `Coupling` packs what relates the two runs between iterations and during them, and the proofs that
turns, hooks and the ends of iterations keep it; `Coupling.agree` carries it through the runs. Two
turns of one vertex agree if the vertex is due in both or in neither and the two updates come to the
same verdict (`Stage.visit_agree`). What runs come to, but for the slots, is their `account`.
-/

namespace VertexSweep

section
variable {ε ε' α α' β β' : Type} {fails : ε → ε' → Prop}

/-- Both computations end with a value, or both with an error, and these are related. -/
def Agree (x : Except ε α) (y : Except ε' α') (fails : ε → ε' → Prop) (holds : α → α' → Prop) :
    Prop :=
  match x, y with
  | .ok a, .ok b => holds a b
  | .error e, .error e' => fails e e'
  | _, _ => False

namespace Agree

theorem bind {x : Except ε α} {y : Except ε' α'} {f : α → Except ε β} {f' : α' → Except ε' β'}
    {P : α → α' → Prop} {Q : β → β' → Prop} (h : Agree x y fails P)
    (hf : ∀ a b, P a b → Agree (f a) (f' b) fails Q) : Agree (x >>= f) (y >>= f') fails Q := by
  cases x <;> cases y
  · exact h
  · exact h.elim
  · exact h.elim
  · exact hf _ _ h

theorem imp {x : Except ε α} {y : Except ε' α'} {P Q : α → α' → Prop} (h : Agree x y fails P)
    (himp : ∀ a b, P a b → Q a b) : Agree x y fails Q := by
  cases x <;> cases y
  · exact h
  · exact h.elim
  · exact h.elim
  · exact himp _ _ h

/-- What relates two loops over the same list. -/
theorem foldlM {ι : Type} {f : α → ι → Except ε α} {f' : α' → ι → Except ε' α'} {I : α → α' → Prop}
    {is : List ι} {s : α} {t : α'} (step : ∀ i ∈ is, ∀ s t, I s t → Agree (f s i) (f' t i) fails I)
    (start : I s t) : Agree (is.foldlM f s) (is.foldlM f' t) fails I := by
  induction is generalizing s t with
  | nil => exact start
  | cons i is ih =>
    rw [List.foldlM_cons, List.foldlM_cons]
    exact (step i List.mem_cons_self s t start).bind fun _ _ =>
      ih fun j hj => step j (List.mem_cons_of_mem i hj)

/-- What relates two loops over the vertices from `a` on. -/
theorem foldlM_range' {f : α → VertexId → Except ε α} {f' : α' → VertexId → Except ε' α'}
    {I : Nat → α → α' → Prop} {len a : Nat} {s : α} {t : α'}
    (step : ∀ k s t, a ≤ k → k < a + len → I k s t →
      Agree (f s (UInt32.ofNat k)) (f' t (UInt32.ofNat k)) fails (I (k + 1)))
    (start : I a s t) :
    Agree (((List.range' a len).map UInt32.ofNat).foldlM f s)
      (((List.range' a len).map UInt32.ofNat).foldlM f' t) fails (I (a + len)) := by
  induction len generalizing a s t with
  | zero => exact start
  | succ len ih =>
    rw [List.range'_succ, List.map_cons, List.foldlM_cons, List.foldlM_cons]
    refine (step a s t (Nat.le_refl a) (by omega) start).bind fun s' t' h => ?_
    have hrest := ih (fun k s t h1 h2 => step k s t (by omega) (by omega)) h
    rwa [show a + 1 + len = a + (len + 1) by omega] at hrest

end Agree

end

variable {σ V E : Type}

/-! ## Runs that come to the same -/

/-- Failures that differ at most in the slots. -/
structure Aborted.Alike (a a' : Aborted σ V E) : Prop where
  fault : a'.fault = a.fault
  state : a'.state = a.state
  values : a'.graph.values = a.graph.values

/-- Ends that differ at most in the slots. -/
structure Finished.Alike (run run' : Finished σ V E) : Prop where
  report : run'.report = run.report
  state : run'.state = run.state
  values : run'.graph.values = run.graph.values

/-- What a run comes to, but for the slots of the edges. -/
def account (x : Except (Aborted σ V E) (Finished σ V E)) :
    Except (Fault × σ × Array V) (Report × σ × Array V) :=
  (x.map fun run => (run.report, run.state, run.graph.values)).mapError fun stop =>
    (stop.fault, stop.state, stop.graph.values)

theorem Agree.account_eq {x y : Except (Aborted σ V E) (Finished σ V E)}
    (h : Agree x y Aborted.Alike Finished.Alike) : account x = account y := by
  cases x <;> cases y
  · exact congrArg Except.error
      (Prod.ext h.fault.symm (Prod.ext h.state.symm h.values.symm))
  · exact h.elim
  · exact h.elim
  · exact congrArg Except.ok
      (Prod.ext h.report.symm (Prod.ext h.state.symm h.values.symm))

/-! ## One turn -/

variable [Inhabited V] {program program' : VertexProgram σ V E} {settings : Settings}
  {g g' : Adjacency} {fails : Aborted σ V E → Aborted σ V E → Prop}

/-- Turns of `v` at two stages are both skipped, or both fail, or both take effect. -/
theorem Stage.visit_agree {s t : Stage σ V E} {v : VertexId}
    {holds : Stage σ V E → Stage σ V E → Prop} (hdue : t.tasks.isDue v = s.tasks.isDue v)
    (hverdict : (t.updateOf program' settings g' v).verdict =
      (s.updateOf program settings g v).verdict)
    (skip : settings.selective = true → s.tasks.isDue v = false → holds s t)
    (failure : ∀ fault, (s.updateOf program settings g v).verdict = .error fault →
      fails (s.stopped g v (s.updateOf program settings g v) fault)
        (t.stopped g' v (t.updateOf program' settings g' v) fault))
    (success : ∀ activity, (settings.selective = true → s.tasks.isDue v = true) →
      (s.updateOf program settings g v).verdict = .ok activity →
      holds (s.updated settings v (s.updateOf program settings g v) activity)
        (t.updated settings v (t.updateOf program' settings g' v) activity)) :
    Agree (s.visit program settings g v) (t.visit program' settings g' v) fails holds := by
  rw [visit_eq, visit_eq, hdue, hverdict]
  by_cases hskip : (settings.selective && !s.tasks.isDue v) = true
  · obtain ⟨hsel, hdue⟩ : settings.selective = true ∧ s.tasks.isDue v = false := by
      simpa using hskip
    rw [if_pos hskip, if_pos hskip]
    exact skip hsel hdue
  · have hdue : settings.selective = true → s.tasks.isDue v = true := by simpa using hskip
    rw [if_neg hskip, if_neg hskip]
    cases hcase : (s.updateOf program settings g v).verdict with
    | error fault => exact failure fault hcase
    | ok activity => exact success activity hdue hcase

/-! ## Whole runs -/

/-- A relation between the stages of two runs that the runs keep. Both have carried out the same
rounds. -/
structure Coupling (program program' : VertexProgram σ V E) (settings : Settings)
    (g g' : Adjacency) (fails : Aborted σ V E → Aborted σ V E → Prop) where
  /-- Holds before an iteration. -/
  between : Array RoundSummary → Stage σ V E → Stage σ V E → Prop
  /-- Holds in an iteration when the vertices below `k` have had their turn. -/
  during : Array RoundSummary → (k : Nat) → Stage σ V E → Stage σ V E → Prop
  begins : ∀ {rounds s t}, rounds.size < settings.maxIterations.toNat → between rounds s t →
    during rounds 0 ((s.enter (UInt32.ofNat rounds.size)).run program.beforeIteration)
      ((t.enter (UInt32.ofNat rounds.size)).run program'.beforeIteration)
  entersWindow : ∀ {rounds k s t} (w : Window), during rounds k s t →
    during rounds k (s.run (program.beforeWindow w)) (t.run (program'.beforeWindow w))
  leavesWindow : ∀ {rounds k s t} (w : Window), during rounds k s t →
    during rounds k (s.run (program.afterWindow w)) (t.run (program'.afterWindow w))
  visits : ∀ {rounds k s t}, rounds.size < settings.maxIterations.toNat → k < g.vertexCount →
    during rounds k s t →
    Agree (s.visit program settings g (UInt32.ofNat k))
      (t.visit program' settings g' (UInt32.ofNat k)) fails (during rounds (k + 1))
  summary_eq : ∀ {rounds s t}, during rounds g.vertexCount s t → t.summary = s.summary
  outcome?_eq : ∀ {rounds s t}, during rounds g.vertexCount s t →
    (t.close program').outcome? settings s.summary = (s.close program).outcome? settings s.summary
  ends : ∀ {rounds s t}, rounds.size < settings.maxIterations.toNat →
    during rounds g.vertexCount s t → (s.close program).outcome? settings s.summary = none →
    between (rounds.push s.summary) (s.close program) (t.close program')

namespace Coupling

variable {rounds : Array RoundSummary} {s t : Stage σ V E}

/-- The relation along the windows from vertex `a` on. -/
private theorem foldlM_sweep_agree (C : Coupling program program' settings g g' fails)
    (hround : rounds.size < settings.maxIterations.toNat) {ws : List Window} :
    ∀ {a len : Nat} {s t : Stage σ V E}, a + len ≤ g.vertexCount →
      ws.flatMap Window.vertices = (List.range' a len).map UInt32.ofNat → C.during rounds a s t →
      Agree (ws.foldlM (Stage.sweep program settings g) s)
        (ws.foldlM (Stage.sweep program' settings g') t) fails (C.during rounds (a + len)) := by
  induction ws with
  | nil =>
    intro a len s t _ hws h
    have hlen : len = 0 := by simpa using congrArg List.length hws.symm
    subst hlen
    exact h
  | cons w ws ih =>
    intro a len s t hle hws h
    obtain ⟨m, hm, hw, hrest⟩ := Window.split_vertices hws
    rw [List.foldlM_cons, List.foldlM_cons]
    have hwindow : Agree (Stage.sweep program settings g s w) (Stage.sweep program' settings g' t w)
        fails (C.during rounds (a + m)) := by
      unfold Stage.sweep
      rw [hw]
      refine Agree.bind (Agree.foldlM_range' (I := C.during rounds) ?_ (C.entersWindow w h)) ?_
      · exact fun k s t _ hk => C.visits hround (by omega)
      · exact fun s t => C.leavesWindow w
    refine hwindow.bind fun s' t' h' => ?_
    have htail := ih (a := a + m) (by omega) hrest h'
    rwa [show a + m + (len - m) = a + len by omega] at htail

/-- The relation through one iteration. -/
theorem iterate_agree (C : Coupling program program' settings g g' fails)
    (hn : g.vertexCount ≤ 4294967296) (hround : rounds.size < settings.maxIterations.toNat)
    (h : C.between rounds s t) :
    Agree (s.iterate program settings g (windows g.vertexCount settings.intervalSize)
        (UInt32.ofNat rounds.size))
      (t.iterate program' settings g' (windows g.vertexCount settings.intervalSize)
        (UInt32.ofNat rounds.size)) fails fun out out' => ∃ s' t' : Stage σ V E,
      out = (s'.summary, s'.close program) ∧ out' = (t'.summary, t'.close program') ∧
        C.during rounds g.vertexCount s' t' := by
  rw [Stage.iterate_eq, Stage.iterate_eq]
  have horder : (windows g.vertexCount settings.intervalSize).flatMap Window.vertices = _ :=
    flatMap_vertices_windows hn
  rw [List.range_eq_range'] at horder
  have hsweep := C.foldlM_sweep_agree hround (by omega) horder (C.begins hround h)
  rw [Nat.zero_add] at hsweep
  exact hsweep.bind fun s' t' h' => ⟨s', t', rfl, rfl, h'⟩

/-- The relation from some iteration to the end of the runs. -/
theorem runFrom_agree (C : Coupling program program' settings g g' fails)
    (hn : g.vertexCount ≤ 4294967296) {Q : Finished σ V E → Finished σ V E → Prop}
    (stops : ∀ {rounds s t outcome}, rounds.size < settings.maxIterations.toNat →
      C.during rounds g.vertexCount s t →
      Q ((s.close program).finish g outcome (rounds.push s.summary))
        ((t.close program').finish g' outcome (rounds.push s.summary)))
    (ceiling : ∀ {rounds s t}, rounds.size = settings.maxIterations.toNat → C.between rounds s t →
      Q (s.finish g .iterationLimit rounds) (t.finish g' .iterationLimit rounds)) :
    ∀ (left : Nat) {rounds : Array RoundSummary} {s t : Stage σ V E},
      rounds.size + left = settings.maxIterations.toNat → C.between rounds s t →
      Agree (s.runFrom program settings g (windows g.vertexCount settings.intervalSize) rounds
          (UInt32.ofNat rounds.size) left)
        (t.runFrom program' settings g' (windows g.vertexCount settings.intervalSize) rounds
          (UInt32.ofNat rounds.size) left) fails Q
  | 0, rounds, s, t, hleft, h => ceiling hleft h
  | left + 1, rounds, s, t, hleft, h => by
    have hround : rounds.size < settings.maxIterations.toNat := by omega
    have hiterate := C.iterate_agree hn hround h
    cases hs : s.iterate program settings g (windows g.vertexCount settings.intervalSize)
        (UInt32.ofNat rounds.size) <;>
      cases ht : t.iterate program' settings g' (windows g.vertexCount settings.intervalSize)
        (UInt32.ofNat rounds.size) <;> rw [hs, ht] at hiterate
    · rw [Stage.runFrom_of_error hs, Stage.runFrom_of_error ht]
      exact hiterate
    · exact hiterate.elim
    · exact hiterate.elim
    · obtain ⟨s', t', rfl, rfl, h'⟩ := hiterate
      rw [C.summary_eq h'] at ht
      have hsame := C.outcome?_eq h'
      cases hend : (s'.close program).outcome? settings s'.summary with
      | some outcome =>
        rw [Stage.runFrom_of_some hs hend, Stage.runFrom_of_some ht (hsame.trans hend)]
        exact stops hround h'
      | none =>
        rw [Stage.runFrom_of_none hs hend, Stage.runFrom_of_none ht (hsame.trans hend)]
        refine C.runFrom_agree hn stops ceiling left ?_ (C.ends hround h' hend)
        rw [Array.size_push]
        omega

/-- **The relation through whole runs**: they stop after the same iteration, or both at the
ceiling. -/
theorem agree (C : Coupling program program' settings g g' fails) (hn : g.vertexCount ≤ 4294967296)
    (hcount : g'.vertexCount = g.vertexCount) {Q : Finished σ V E → Finished σ V E → Prop}
    {state : σ} {values values' : Array V} {slots slots' : Array E}
    (start : C.between #[]
      { state, values, slots, tasks := (Tasks.ofVertexCount g.vertexCount).addAll }
      { state, values := values', slots := slots',
        tasks := (Tasks.ofVertexCount g.vertexCount).addAll })
    (stops : ∀ {rounds s t outcome}, rounds.size < settings.maxIterations.toNat →
      C.during rounds g.vertexCount s t →
      Q ((s.close program).finish g outcome (rounds.push s.summary))
        ((t.close program').finish g' outcome (rounds.push s.summary)))
    (ceiling : ∀ {rounds s t}, rounds.size = settings.maxIterations.toNat → C.between rounds s t →
      Q (s.finish g .iterationLimit rounds) (t.finish g' .iterationLimit rounds)) :
    Agree (program.run settings state ⟨g, values, slots⟩)
      (program'.run settings state ⟨g', values', slots'⟩) fails Q := by
  have hrun := C.runFrom_agree hn stops ceiling _ (Nat.zero_add _) start
  simp only [VertexProgram.run, hcount]
  exact hrun

end Coupling

end VertexSweep
