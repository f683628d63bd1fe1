import VertexSweep.Proofs.Sweep.Order
import VertexSweep.Proofs.Sweep.Schedule
import VertexSweep.Sweep.Run

/-!
# Invariants of a run

`Yields` says what holds of the value of a computation, or else of the error that ended it.
`Stage.visit_eq` is the one place where the turn of a vertex is taken apart: it is skipped, or its
update fails (`Stage.stopped`), or its update takes effect (`Stage.updated`). A `RunInvariant` packs
a property that holds between iterations with one that holds during them, and the proofs that turns,
hooks and the ends of iterations keep the two; `RunInvariant.yields` carries it through a whole run,
whatever the window size.
-/

namespace VertexSweep

/-! ## Computations that may fail -/

section
variable {ε α β : Type} {fails : ε → Prop}

/-- The computation ends with a value of which `holds` is true, or with an error of which `fails`
is true. -/
def Yields (x : Except ε α) (fails : ε → Prop) (holds : α → Prop) : Prop :=
  match x with
  | .ok a => holds a
  | .error e => fails e

namespace Yields

theorem bind {x : Except ε α} {f : α → Except ε β} {P : α → Prop} {Q : β → Prop}
    (hx : Yields x fails P) (hf : ∀ a, P a → Yields (f a) fails Q) :
    Yields (x >>= f) fails Q := by
  cases x with
  | ok a => exact hf a hx
  | error e => exact hx

theorem imp {x : Except ε α} {P Q : α → Prop} (hx : Yields x fails P) (h : ∀ a, P a → Q a) :
    Yields x fails Q := by
  cases x with
  | ok a => exact h a hx
  | error e => exact hx

theorem mono {x : Except ε α} {fails' : ε → Prop} {P Q : α → Prop} (hx : Yields x fails P)
    (he : ∀ e, fails e → fails' e) (h : ∀ a, P a → Q a) : Yields x fails' Q := by
  cases x with
  | ok a => exact h a hx
  | error e => exact he e hx

theorem and {x : Except ε α} {fails' : ε → Prop} {P Q : α → Prop} (hP : Yields x fails' P)
    (hQ : Yields x fails Q) : Yields x fails fun a => P a ∧ Q a := by
  cases x with
  | ok a => exact ⟨hP, hQ⟩
  | error e => exact hQ

theorem of_eq_ok {x : Except ε α} {P : α → Prop} {a : α} (hx : Yields x fails P)
    (h : x = .ok a) : P a := by
  rw [h] at hx
  exact hx

/-- A computation that cannot fail returns a value. -/
theorem exists_ok {x : Except ε α} {P : α → Prop} (hx : Yields x (fun _ => False) P) :
    ∃ a, x = .ok a ∧ P a := by
  cases x with
  | ok a => exact ⟨a, rfl, hx⟩
  | error e => exact hx.elim

/-- A value that passes a test is returned. -/
theorem exists_ok_of_any {x : Except ε α} {f : α → Bool} (h : x.toOption.any f = true) :
    ∃ a, x = .ok a ∧ f a = true := by
  cases x with
  | ok a => exact ⟨a, rfl, h⟩
  | error e => cases h

/-- An error that passes a test is returned. -/
theorem exists_error_of_any {x : Except ε α} {f : ε → Bool}
    (h : (match x with | .ok _ => false | .error e => f e) = true) :
    ∃ e, x = .error e ∧ f e = true := by
  cases x with
  | ok a => cases h
  | error e => exact ⟨e, rfl, h⟩

/-- An invariant of a loop. -/
theorem foldlM {ι : Type} {f : β → ι → Except ε β} {I : β → Prop} {is : List ι} {b : β}
    (step : ∀ i ∈ is, ∀ b, I b → Yields (f b i) fails I) (start : I b) :
    Yields (is.foldlM f b) fails I := by
  induction is generalizing b with
  | nil => exact start
  | cons i is ih =>
    rw [List.foldlM_cons]
    exact (step i List.mem_cons_self b start).bind fun _ =>
      ih fun j hj => step j (List.mem_cons_of_mem i hj)

/-- An invariant of the loop over the vertices from `a` on. -/
theorem foldlM_range' {f : β → VertexId → Except ε β} {I : Nat → β → Prop} {len a : Nat} {b : β}
    (step : ∀ k b, a ≤ k → k < a + len → I k b → Yields (f b (UInt32.ofNat k)) fails (I (k + 1)))
    (start : I a b) :
    Yields (((List.range' a len).map UInt32.ofNat).foldlM f b) fails (I (a + len)) := by
  induction len generalizing a b with
  | zero => exact start
  | succ len ih =>
    rw [List.range'_succ, List.map_cons, List.foldlM_cons]
    refine (step a b (Nat.le_refl a) (by omega) start).bind fun b' hb' => ?_
    have hrest := ih (fun k b h1 h2 => step k b (by omega) (by omega)) hb'
    rwa [show a + 1 + len = a + (len + 1) by omega] at hrest

end Yields

end

/-- Wishes do not change the iteration. -/
@[simp]
theorem Control.iteration_heed {c : Control} {wish : Option UInt32} :
    (c.heed wish).iteration = c.iteration := by
  cases wish <;> rfl

namespace Stage

variable {σ V E : Type} [Inhabited V] {program : VertexProgram σ V E} {settings : Settings}
  {g : Adjacency} {s : Stage σ V E} {v : VertexId}

/-! ## One turn -/

/-- The update that `v` carries out if it gets its turn now. -/
def updateOf (program : VertexProgram σ V E) (settings : Settings) (g : Adjacency)
    (s : Stage σ V E) (v : VertexId) : Update σ V E :=
  program.update ⟨s.control.iteration, settings⟩ s.state
    ⟨v, s.values.getD v.toNat default, g, s.slots⟩

/-- The stage after the update `u` of `v`, which reported `activity`. -/
def updated (settings : Settings) (s : Stage σ V E) (v : VertexId) (u : Update σ V E)
    (activity : Activity) : Stage σ V E where
  state := u.state
  values := s.values.setIfInBounds v.toNat u.view.value
  slots := u.view.slots
  tasks := if settings.selective then (s.tasks.take v).2.grantAll u.requests else (s.tasks.take v).2
  control := s.control
  visited := s.visited + 1
  changed := if activity.isChanged then s.changed + 1 else s.changed

/-- What is left when the update `u` of `v` fails. -/
def stopped (g : Adjacency) (s : Stage σ V E) (v : VertexId) (u : Update σ V E) (fault : Fault) :
    Aborted σ V E :=
  ⟨fault, u.state, g, s.values.setIfInBounds v.toNat u.view.value, u.view.slots⟩

theorem visit_eq : s.visit program settings g v =
    if settings.selective && !s.tasks.isDue v then .ok s
    else ((s.updateOf program settings g v).verdict.mapError
        (s.stopped g v (s.updateOf program settings g v))).map
      (s.updated settings v (s.updateOf program settings g v)) := by
  by_cases hskip : (settings.selective && !s.tasks.isDue v) = true
  · obtain ⟨hsel, hdue⟩ : settings.selective = true ∧ s.tasks.isDue v = false := by
      simpa using hskip
    simp [visit, Tasks.take_of_not_isDue hdue, hsel, hdue]
  · simp only [visit, Tasks.fst_take, if_neg hskip]
    split
    · rename_i hverdict
      rw [show (s.updateOf program settings g v).verdict = _ from hverdict]
      rfl
    · rename_i hverdict
      rw [show (s.updateOf program settings g v).verdict = _ from hverdict]
      rfl

/-- Two settings are the same to a turn if they have the same mode and the update does not tell
them apart. -/
theorem visit_congr {settings' : Settings} (hmode : settings'.selective = settings.selective)
    (hupdate : ∀ iteration state view, program.update ⟨iteration, settings'⟩ state view =
      program.update ⟨iteration, settings⟩ state view) :
    s.visit program settings' g v = s.visit program settings g v := by
  have hsame : s.updateOf program settings' g v = s.updateOf program settings g v :=
    hupdate ..
  have hupdated : s.updated settings' v (s.updateOf program settings g v) =
      s.updated settings v (s.updateOf program settings g v) := by
    unfold updated
    rw [hmode]
  rw [visit_eq, visit_eq, hsame, hupdated, hmode]

/-- A turn is skipped, or it fails, or it takes effect. -/
theorem visit_yields {fails : Aborted σ V E → Prop} {holds : Stage σ V E → Prop}
    (skip : settings.selective = true → s.tasks.isDue v = false → holds s)
    (failure : ∀ fault, (s.updateOf program settings g v).verdict = .error fault →
      fails ⟨fault, (s.updateOf program settings g v).state, g,
        s.values.setIfInBounds v.toNat (s.updateOf program settings g v).view.value,
        (s.updateOf program settings g v).view.slots⟩)
    (success : ∀ activity, (settings.selective = true → s.tasks.isDue v = true) →
      (s.updateOf program settings g v).verdict = .ok activity →
      holds (s.updated settings v (s.updateOf program settings g v) activity)) :
    Yields (s.visit program settings g v) fails holds := by
  rw [visit_eq]
  by_cases hskip : (settings.selective && !s.tasks.isDue v) = true
  · obtain ⟨hsel, hdue⟩ : settings.selective = true ∧ s.tasks.isDue v = false := by
      simpa using hskip
    rw [if_pos hskip]
    exact skip hsel hdue
  · have hdue : settings.selective = true → s.tasks.isDue v = true := by simpa using hskip
    rw [if_neg hskip]
    cases hverdict : (s.updateOf program settings g v).verdict with
    | error fault => exact failure fault hverdict
    | ok activity => exact success activity hdue hverdict

/-- What is true of every stage of iteration `i`, whatever the program does. -/
structure InIteration (g : Adjacency) (i : Nat) (s : Stage σ V E) : Prop where
  iteration : s.control.iteration = UInt32.ofNat i
  bound : s.tasks.bound = min g.vertexCount maxWord

omit [Inhabited V] in
theorem InIteration.toNat_iteration {i : Nat} (h : s.InIteration g i) (hi : i < 4294967296) :
    s.control.iteration.toNat = i := by
  rw [h.iteration]
  exact UInt32.toNat_ofNat_of_lt' hi

omit [Inhabited V] in
theorem InIteration.run {i : Nat} (h : s.InIteration g i) (hook : Hook σ) :
    (s.run hook).InIteration g i where
  iteration := by
    rw [← h.iteration]
    show (s.control.heed (hook s.control s.state).2).iteration = s.control.iteration
    cases (hook s.control s.state).2 <;> rfl
  bound := h.bound

omit [Inhabited V] in
theorem InIteration.updated {i : Nat} (h : s.InIteration g i) (u : Update σ V E)
    (activity : Activity) : (s.updated settings v u activity).InIteration g i where
  iteration := h.iteration
  bound := by
    rw [← h.bound]
    show (if settings.selective then _ else _ : Tasks).bound = _
    split <;> simp

/-- Ends an iteration: runs the hook for it, and makes due what was requested. -/
def close (program : VertexProgram σ V E) (s : Stage σ V E) : Stage σ V E :=
  let s := s.run (program.afterIteration s.summary)
  { s with tasks := s.tasks.advance }

theorem iterate_eq (ws : List Window) (iteration : UInt32) :
    s.iterate program settings g ws iteration =
      ((ws.foldlM (sweep program settings g)
        ((s.enter iteration).run program.beforeIteration)) >>= fun s =>
          .ok (s.summary, s.close program)) := rfl

/-! ## One iteration of a run -/

section
variable {ws : List Window} {rounds : Array RoundSummary} {round : RoundSummary}
  {s' : Stage σ V E} {left : Nat}

omit [Inhabited V] in
theorem ofNat_size_push :
    UInt32.ofNat (rounds.push round).size = UInt32.ofNat rounds.size + 1 := by
  rw [Array.size_push]
  exact UInt32.ofNat_add ..

theorem runFrom_of_error {aborted : Aborted σ V E}
    (h : s.iterate program settings g ws (UInt32.ofNat rounds.size) = .error aborted) :
    s.runFrom program settings g ws rounds (UInt32.ofNat rounds.size) (left + 1) =
      .error aborted := by
  unfold runFrom
  rw [h]

theorem runFrom_of_some {outcome : Outcome}
    (h : s.iterate program settings g ws (UInt32.ofNat rounds.size) = .ok (round, s'))
    (hend : s'.outcome? settings round = some outcome) :
    s.runFrom program settings g ws rounds (UInt32.ofNat rounds.size) (left + 1) =
      .ok (s'.finish g outcome (rounds.push round)) := by
  unfold runFrom
  simp only [h, hend]

theorem runFrom_of_none
    (h : s.iterate program settings g ws (UInt32.ofNat rounds.size) = .ok (round, s'))
    (hend : s'.outcome? settings round = none) :
    s.runFrom program settings g ws rounds (UInt32.ofNat rounds.size) (left + 1) =
      s'.runFrom program settings g ws (rounds.push round)
        (UInt32.ofNat (rounds.push round).size) left := by
  rw [ofNat_size_push]
  conv => lhs; unfold runFrom
  simp only [h, hend]

/-- Runs are the same if their iterations are, in the same mode. -/
theorem runFrom_congr {settings' : Settings} {ws' : List Window} {iteration : UInt32}
    (hmode : settings'.selective = settings.selective)
    (h : ∀ (s : Stage σ V E) iteration, s.iterate program settings' g ws' iteration =
      s.iterate program settings g ws iteration) :
    s.runFrom program settings' g ws' rounds iteration left =
      s.runFrom program settings g ws rounds iteration left := by
  have hend : ∀ (s : Stage σ V E) round,
      s.outcome? settings' round = s.outcome? settings round := by
    intro s round
    unfold outcome?
    rw [hmode]
  induction left generalizing s rounds iteration with
  | zero => rfl
  | succ left ih =>
    unfold runFrom
    rw [h]
    simp only [hend, ih]

/-- What an iteration keeps that does not end the run holds until the run ends. -/
theorem runFrom_yields {fails : Aborted σ V E → Prop}
    {I : Array RoundSummary → Stage σ V E → Prop} {Q : Finished σ V E → Prop}
    (iterates : ∀ {rounds s}, rounds.size < settings.maxIterations.toNat → I rounds s →
      Yields (s.iterate program settings g ws (UInt32.ofNat rounds.size)) fails fun out =>
        (∀ outcome, out.2.outcome? settings out.1 = some outcome →
          Q (out.2.finish g outcome (rounds.push out.1))) ∧
        (out.2.outcome? settings out.1 = none → I (rounds.push out.1) out.2))
    (ceiling : ∀ {rounds s}, rounds.size = settings.maxIterations.toNat → I rounds s →
      Q (s.finish g .iterationLimit rounds))
    (left : Nat) {rounds : Array RoundSummary} {s : Stage σ V E}
    (hleft : rounds.size + left = settings.maxIterations.toNat) (h : I rounds s) :
    Yields (s.runFrom program settings g ws rounds (UInt32.ofNat rounds.size) left) fails Q := by
  induction left generalizing rounds s with
  | zero => exact ceiling hleft h
  | succ left ih =>
    have hiterate := iterates (by omega) h
    cases hres : s.iterate program settings g ws (UInt32.ofNat rounds.size) with
    | error aborted =>
      rw [hres] at hiterate
      rw [runFrom_of_error hres]
      exact hiterate
    | ok out =>
      obtain ⟨round, s'⟩ := out
      obtain ⟨hstops, hgoes⟩ := hiterate.of_eq_ok hres
      cases hend : s'.outcome? settings round with
      | some outcome =>
        rw [runFrom_of_some hres hend]
        exact hstops outcome hend
      | none =>
        rw [runFrom_of_none hres hend]
        refine ih ?_ (hgoes hend)
        rw [Array.size_push]
        omega

end

/-- The turn of vertex number `k`. -/
theorem visit_ofNat {fails : Aborted σ V E → Prop} {D : Nat → Stage σ V E → Prop}
    {s : Stage σ V E} {k : Nat} (hn : g.vertexCount ≤ 4294967296) (hk : k < g.vertexCount)
    (h : D k s) (hvisit : ∀ v : VertexId, v.toNat < g.vertexCount → D v.toNat s →
      Yields (s.visit program settings g v) fails (D (v.toNat + 1))) :
    Yields (s.visit program settings g (UInt32.ofNat k)) fails (D (k + 1)) := by
  have hword : (UInt32.ofNat k).toNat = k :=
    UInt32.toNat_ofNat_of_lt' (Nat.lt_of_lt_of_le hk hn)
  have hturn := hvisit (UInt32.ofNat k) (hword.symm ▸ hk) (hword.symm ▸ h)
  rwa [hword] at hturn

end Stage

/-! ## Whole runs -/

/-- A property of stages that a run keeps. The rounds carried out so far are at hand, so their
number is that of the iteration that is due or under way. -/
structure RunInvariant {σ V E : Type} [Inhabited V] (program : VertexProgram σ V E)
    (settings : Settings) (g : Adjacency) (fails : Aborted σ V E → Prop) where
  /-- Holds before an iteration. -/
  between : Array RoundSummary → Stage σ V E → Prop
  /-- Holds in an iteration when the vertices below `k` have had their turn. -/
  during : Array RoundSummary → (k : Nat) → Stage σ V E → Prop
  begins : ∀ {rounds s}, rounds.size < settings.maxIterations.toNat → between rounds s →
    during rounds 0 ((s.enter (UInt32.ofNat rounds.size)).run program.beforeIteration)
  entersWindow : ∀ {rounds k s} (w : Window), during rounds k s →
    during rounds k (s.run (program.beforeWindow w))
  leavesWindow : ∀ {rounds k s} (w : Window), during rounds k s →
    during rounds k (s.run (program.afterWindow w))
  visits : ∀ {rounds k s}, rounds.size < settings.maxIterations.toNat → k < g.vertexCount →
    s.InIteration g rounds.size → during rounds k s →
    Yields (s.visit program settings g (UInt32.ofNat k)) fails (during rounds (k + 1))
  ends : ∀ {rounds s}, rounds.size < settings.maxIterations.toNat → s.InIteration g rounds.size →
    during rounds g.vertexCount s → (s.close program).outcome? settings s.summary = none →
    between (rounds.push s.summary) (s.close program)

namespace RunInvariant

variable {σ V E : Type} [Inhabited V] {program : VertexProgram σ V E} {settings : Settings}
  {g : Adjacency} {fails : Aborted σ V E → Prop} {rounds : Array RoundSummary} {s : Stage σ V E}

/-- A turn keeps what is true of every stage of an iteration. -/
theorem visits_inIteration (I : RunInvariant program settings g fails) {k : Nat}
    (hround : rounds.size < settings.maxIterations.toNat) (hk : k < g.vertexCount)
    (hs : s.InIteration g rounds.size) (h : I.during rounds k s) :
    Yields (s.visit program settings g (UInt32.ofNat k)) fails fun s' =>
      s'.InIteration g rounds.size ∧ I.during rounds (k + 1) s' := by
  have hkeeps : Yields (s.visit program settings g (UInt32.ofNat k)) (fun _ => True)
      (·.InIteration g rounds.size) :=
    Stage.visit_yields (fun _ _ => hs) (fun _ _ => trivial) fun activity _ _ =>
      hs.updated _ activity
  exact hkeeps.and (I.visits hround hk hs h)

/-- The invariant along the windows from vertex `a` on. -/
private theorem foldlM_sweep (I : RunInvariant program settings g fails)
    (hround : rounds.size < settings.maxIterations.toNat) {ws : List Window} :
    ∀ {a len : Nat} {s : Stage σ V E}, a + len ≤ g.vertexCount →
      ws.flatMap Window.vertices = (List.range' a len).map UInt32.ofNat →
      s.InIteration g rounds.size ∧ I.during rounds a s →
      Yields (ws.foldlM (Stage.sweep program settings g) s) fails fun s' =>
        s'.InIteration g rounds.size ∧ I.during rounds (a + len) s' := by
  induction ws with
  | nil =>
    intro a len s _ hws hs
    have hlen : len = 0 := by simpa using congrArg List.length hws.symm
    subst hlen
    exact hs
  | cons w ws ih =>
    intro a len s hle hws hs
    obtain ⟨m, hm, hw, hrest⟩ := Window.split_vertices hws
    rw [List.foldlM_cons]
    have hwindow : Yields (Stage.sweep program settings g s w) fails fun s' =>
        s'.InIteration g rounds.size ∧ I.during rounds (a + m) s' := by
      unfold Stage.sweep
      rw [hw]
      refine Yields.bind (Yields.foldlM_range'
        (I := fun k s => s.InIteration g rounds.size ∧ I.during rounds k s) ?_ ?_) ?_
      · rintro k s' - hk ⟨hs', hduring⟩
        exact I.visits_inIteration hround (by omega) hs' hduring
      · exact ⟨hs.1.run _, I.entersWindow w hs.2⟩
      · rintro s' ⟨hs', hduring⟩
        exact ⟨hs'.run _, I.leavesWindow w hduring⟩
    refine hwindow.bind fun s' hs' => ?_
    have htail := ih (a := a + m) (by omega) hrest hs'
    rwa [show a + m + (len - m) = a + len by omega] at htail

/-- The invariant through one iteration. -/
theorem iterate_yields (I : RunInvariant program settings g fails)
    (hn : g.vertexCount ≤ 4294967296) (hround : rounds.size < settings.maxIterations.toNat)
    (hbound : s.tasks.bound = min g.vertexCount maxWord) (h : I.between rounds s) :
    Yields (s.iterate program settings g (windows g.vertexCount settings.intervalSize)
        (UInt32.ofNat rounds.size)) fails fun out =>
      ∃ s', out = (s'.summary, s'.close program) ∧ s'.InIteration g rounds.size ∧
        I.during rounds g.vertexCount s' := by
  rw [Stage.iterate_eq]
  have henter : (s.enter (UInt32.ofNat rounds.size)).InIteration g rounds.size := ⟨rfl, hbound⟩
  have horder : (windows g.vertexCount settings.intervalSize).flatMap Window.vertices = _ :=
    flatMap_vertices_windows hn
  rw [List.range_eq_range'] at horder
  have hsweep := I.foldlM_sweep hround (a := 0) (by omega) horder
    ⟨henter.run program.beforeIteration, I.begins hround h⟩
  rw [Nat.zero_add] at hsweep
  exact hsweep.bind fun s' hs' => ⟨s', rfl, hs'⟩

/-- The invariant from some iteration to the end of the run. -/
theorem runFrom_yields (I : RunInvariant program settings g fails)
    (hn : g.vertexCount ≤ 4294967296) {Q : Finished σ V E → Prop}
    (stops : ∀ {rounds s outcome}, rounds.size < settings.maxIterations.toNat →
      s.InIteration g rounds.size → I.during rounds g.vertexCount s →
      (s.close program).outcome? settings s.summary = some outcome →
      Q ((s.close program).finish g outcome (rounds.push s.summary)))
    (ceiling : ∀ {rounds s}, rounds.size = settings.maxIterations.toNat → I.between rounds s →
      Q (s.finish g .iterationLimit rounds))
    (left : Nat) {rounds : Array RoundSummary} {s : Stage σ V E}
    (hleft : rounds.size + left = settings.maxIterations.toNat)
    (hbound : s.tasks.bound = min g.vertexCount maxWord) (h : I.between rounds s) :
    Yields (s.runFrom program settings g (windows g.vertexCount settings.intervalSize) rounds
      (UInt32.ofNat rounds.size) left) fails Q := by
  refine Stage.runFrom_yields
    (I := fun rounds s => s.tasks.bound = min g.vertexCount maxWord ∧ I.between rounds s) ?_
    (fun hsize h => ceiling hsize h.2) left hleft ⟨hbound, h⟩
  intro rounds s hround ⟨hbound, h⟩
  refine (I.iterate_yields hn hround hbound h).imp ?_
  rintro _ ⟨s', rfl, hs', hduring⟩
  exact ⟨fun outcome => stops hround hs' hduring, fun hend =>
    ⟨(hs'.run _).bound, I.ends hround hs' hduring hend⟩⟩

/-- **The invariant through a whole run**: it ends after an iteration whose stage satisfies what
holds during the run, or at the ceiling with a stage that satisfies what holds between
iterations. -/
theorem yields (I : RunInvariant program settings g fails) (hn : g.vertexCount ≤ 4294967296)
    {Q : Finished σ V E → Prop} {state : σ} {values : Array V} {slots : Array E}
    (start : I.between #[]
      { state, values, slots, tasks := (Tasks.ofVertexCount g.vertexCount).addAll })
    (stops : ∀ {rounds s outcome}, rounds.size < settings.maxIterations.toNat →
      s.InIteration g rounds.size → I.during rounds g.vertexCount s →
      (s.close program).outcome? settings s.summary = some outcome →
      Q ((s.close program).finish g outcome (rounds.push s.summary)))
    (ceiling : ∀ {rounds s}, rounds.size = settings.maxIterations.toNat → I.between rounds s →
      Q (s.finish g .iterationLimit rounds)) :
    Yields (program.run settings state ⟨g, values, slots⟩) fails Q :=
  I.runFrom_yields hn stops ceiling _ (Nat.zero_add _) rfl start

end RunInvariant

end VertexSweep
