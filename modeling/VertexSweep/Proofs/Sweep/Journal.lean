import VertexSweep.Proofs.Sweep.Invariant

/-!
# The journal of a run

A program can be made to note each of its callbacks (`VertexProgram.journaled`): the journal is a
second component of its state, which no callback reads. Such a program `Projects` to the one it was
made from, and then the runs of the two are the same up to that component
(`VertexProgram.Projects.run`). So `VertexProgram.chronicle` tells of the run of the program itself
(`VertexProgram.result_chronicle`), and of what happened on the way.
-/

namespace VertexSweep

variable {σ τ V E : Type}

/-! ## Programs with more state than they need -/

def Update.mapState (π : τ → σ) (u : Update τ V E) : Update σ V E :=
  ⟨π u.state, u.view, u.requests, u.verdict⟩

def Stage.mapState (π : τ → σ) (s : Stage τ V E) : Stage σ V E :=
  ⟨π s.state, s.values, s.slots, s.tasks, s.control, s.visited, s.changed⟩

def Aborted.mapState (π : τ → σ) (a : Aborted τ V E) : Aborted σ V E :=
  ⟨a.fault, π a.state, a.graph⟩

def Finished.mapState (π : τ → σ) (f : Finished τ V E) : Finished σ V E :=
  ⟨f.report, π f.state, f.graph⟩

/-- The hook does to the image of a state what the other hook does to the state. -/
def Hook.Projects (π : τ → σ) (hook : Hook τ) (hook' : Hook σ) : Prop :=
  ∀ control state, hook' control (π state) = (π (hook control state).1, (hook control state).2)

/-- Every callback of `P`, seen through `π`, is that of `Q`. -/
structure VertexProgram.Projects (π : τ → σ) (P : VertexProgram τ V E) (Q : VertexProgram σ V E) :
    Prop where
  update : ∀ context state view,
    Q.update context (π state) view = (P.update context state view).mapState π
  beforeIteration : P.beforeIteration.Projects π Q.beforeIteration
  afterIteration : ∀ round, (P.afterIteration round).Projects π (Q.afterIteration round)
  beforeWindow : ∀ w, (P.beforeWindow w).Projects π (Q.beforeWindow w)
  afterWindow : ∀ w, (P.afterWindow w).Projects π (Q.afterWindow w)

section
variable {α β γ δ : Type} {π : τ → σ}

/-- The result of a part of a run, seen through `π`. -/
def project (π : τ → σ) (f : α → β) (x : Except (Aborted τ V E) α) : Except (Aborted σ V E) β :=
  (x.mapError (Aborted.mapState π)).map f

theorem project_ok {f : α → β} {a : α} :
    project (V := V) (E := E) π f (.ok a) = .ok (f a) := rfl

theorem project_bind {f : α → β} {h : γ → δ} {x : Except (Aborted τ V E) α}
    {k : α → Except (Aborted τ V E) γ} {k' : β → Except (Aborted σ V E) δ}
    (hk : ∀ a, project π h (k a) = k' (f a)) : project π h (x >>= k) = project π f x >>= k' := by
  cases x with
  | ok a => exact hk a
  | error aborted => rfl

theorem project_foldlM {ι : Type} {f : α → β} {step : α → ι → Except (Aborted τ V E) α}
    {step' : β → ι → Except (Aborted σ V E) β}
    (hstep : ∀ a i, project π f (step a i) = step' (f a) i) (is : List ι) (a : α) :
    project π f (is.foldlM step a) = is.foldlM step' (f a) := by
  induction is generalizing a with
  | nil => rfl
  | cons i is ih =>
    rw [List.foldlM_cons, List.foldlM_cons, ← hstep]
    exact project_bind ih

end

namespace Stage

variable {π : τ → σ} {P : VertexProgram τ V E} {Q : VertexProgram σ V E} {settings : Settings}
  {g : Adjacency} {s : Stage τ V E}

theorem mapState_run {hook : Hook τ} {hook' : Hook σ} (h : hook.Projects π hook') :
    (s.run hook).mapState π = (s.mapState π).run hook' := by
  obtain ⟨state, values, slots, tasks, control, visited, changed⟩ := s
  simp only [run, mapState, h control state]

theorem project_visit [Inhabited V] (h : P.Projects π Q) (s : Stage τ V E) (v : VertexId) :
    project π (mapState π) (s.visit P settings g v) = (s.mapState π).visit Q settings g v := by
  have hupdate : (s.mapState π).updateOf Q settings g v =
      (s.updateOf P settings g v).mapState π := h.update ..
  have hdue : (s.mapState π).tasks.isDue v = s.tasks.isDue v := rfl
  rw [visit_eq, visit_eq, hupdate, hdue]
  split
  · rfl
  generalize s.updateOf P settings g v = u
  obtain ⟨state, view, requests, verdict⟩ := u
  cases verdict with
  | error fault => rfl
  | ok activity => rfl

theorem project_sweep [Inhabited V] (h : P.Projects π Q) (s : Stage τ V E) (w : Window) :
    project π (mapState π) (s.sweep P settings g w) = (s.mapState π).sweep Q settings g w := by
  unfold sweep
  rw [← mapState_run (h.beforeWindow w), ← project_foldlM (project_visit h)]
  exact project_bind fun s => congrArg Except.ok (mapState_run (h.afterWindow w))

theorem project_iterate [Inhabited V] (h : P.Projects π Q) (ws : List Window) (iteration : UInt32) :
    project π (Prod.map id (mapState π)) (s.iterate P settings g ws iteration) =
      (s.mapState π).iterate Q settings g ws iteration := by
  rw [iterate_eq, iterate_eq]
  have hbegin : ((s.enter iteration).run P.beforeIteration).mapState π =
      ((s.mapState π).enter iteration).run Q.beforeIteration := mapState_run h.beforeIteration
  rw [← hbegin, ← project_foldlM (project_sweep h)]
  refine project_bind fun s => congrArg (fun s' => Except.ok (s.summary, s')) ?_
  have hclose := mapState_run (s := s) (h.afterIteration s.summary)
  exact congrArg (fun s' : Stage σ V E => { s' with tasks := s'.tasks.advance }) hclose

theorem project_runFrom [Inhabited V] (h : P.Projects π Q) (ws : List Window)
    (rounds : Array RoundSummary) (iteration : UInt32) (left : Nat) :
    project π (Finished.mapState π) (s.runFrom P settings g ws rounds iteration left) =
      (s.mapState π).runFrom Q settings g ws rounds iteration left := by
  induction left generalizing s rounds iteration with
  | zero => rfl
  | succ left ih =>
    unfold runFrom
    rw [← project_iterate h]
    cases s.iterate P settings g ws iteration with
    | error aborted => rfl
    | ok out =>
      obtain ⟨round, s'⟩ := out
      -- Both runs see the same summary and the same tasks, so they end together.
      have hend : (s'.mapState π).outcome? settings round = s'.outcome? settings round := rfl
      simp only [project_ok, Prod.map, id, hend]
      cases s'.outcome? settings round with
      | some outcome => rfl
      | none => exact ih (rounds.push round) (iteration + 1)

end Stage

/-- **The run of a program with more state is the run of the program that does without.** -/
theorem VertexProgram.Projects.run [Inhabited V] {π : τ → σ} {P : VertexProgram τ V E}
    {Q : VertexProgram σ V E} (h : P.Projects π Q) (settings : Settings) (state : τ)
    (graph : DataGraph V E) :
    project π (Finished.mapState π) (P.run settings state graph) =
      Q.run settings (π state) graph :=
  Stage.project_runFrom h ..

/-! ## Noting callbacks -/

/-- An update as it was carried out. -/
structure Turn where
  iteration : UInt32
  vertex : VertexId
  requests : List Request
  verdict : Except Fault Activity

inductive Callback where
  | beforeIteration (iteration : UInt32)
  | beforeWindow (window : Window)
  | update (turn : Turn)
  | afterWindow (window : Window)
  | afterIteration (round : RoundSummary)

/-- The callbacks of a run in their order. -/
abbrev Journal := List Callback

/-- Runs a hook and makes an entry for it. -/
def Hook.noting (hook : Hook σ) (entry : Callback) : Hook (σ × Journal) := fun control state =>
  (((hook control state.1).1, state.2 ++ [entry]), (hook control state.1).2)

/-- The program that notes all of its callbacks. -/
def VertexProgram.journaled (program : VertexProgram σ V E) :
    VertexProgram (σ × Journal) V E where
  update context state view :=
    let u := program.update context state.1 view
    { state := (u.state,
        state.2 ++ [.update ⟨context.iteration, view.id, u.requests.toList, u.verdict⟩])
      view := u.view
      requests := u.requests
      verdict := u.verdict }
  beforeIteration control :=
    program.beforeIteration.noting (.beforeIteration control.iteration) control
  afterIteration round := (program.afterIteration round).noting (.afterIteration round)
  beforeWindow w := (program.beforeWindow w).noting (.beforeWindow w)
  afterWindow w := (program.afterWindow w).noting (.afterWindow w)

theorem VertexProgram.journaled_projects (program : VertexProgram σ V E) :
    program.journaled.Projects Prod.fst program where
  update _ _ _ := rfl
  beforeIteration _ _ := rfl
  afterIteration _ _ _ := rfl
  beforeWindow _ _ _ := rfl
  afterWindow _ _ _ := rfl

/-- How a run ended, and its callbacks on the way. -/
structure Chronicle (σ V E : Type) where
  result : Except (Aborted σ V E) (Finished σ V E)
  journal : Journal

section
variable [Inhabited V] (program : VertexProgram σ V E) (settings : Settings) (state : σ)
  (graph : DataGraph V E)

/-- The chronicle of a run. -/
def VertexProgram.chronicle : Chronicle σ V E :=
  match program.journaled.run settings (state, []) graph with
  | .ok run => ⟨.ok (run.mapState Prod.fst), run.state.2⟩
  | .error stop => ⟨.error (stop.mapState Prod.fst), stop.state.2⟩

/-- Keeping a journal changes nothing else. -/
theorem VertexProgram.result_chronicle :
    (program.chronicle settings state graph).result = program.run settings state graph := by
  rw [← program.journaled_projects.run settings (state, []) graph]
  unfold chronicle
  cases program.journaled.run settings (state, []) graph with
  | ok run => rfl
  | error stop => rfl

end

end VertexSweep
