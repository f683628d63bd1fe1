import Mathlib.Logic.Function.Basic
import VertexSweep.Proofs.Graph.Walks
import VertexSweep.Proofs.Sweep.Settling
import VertexSweep.Relax.Basic

/-!
# Laws of relaxations

A relaxation is made of two updates, the first turn of a vertex and every later one
(`Relaxation.ofTurns`). A `Relaxation.Law` collects what has to be shown of the two, one turn at a
time and in terms of the `Numbers` that the turn reads and leaves behind: what the first turns bring
about, what later turns keep, and that a turn requests every vertex that it unsettles.
`Law.run_yields` carries this through a run in either activation mode: no turn fails, and when the
run converges every vertex is stable.
-/

namespace VertexSweep

/-! ## Words -/

/-- Below the largest word nothing wraps around. -/
theorem toNat_add_one {c : UInt32} (h : c.toNat < maxWord) : (c + 1).toNat = c.toNat + 1 := by
  have hword : c.toNat + 1 < 2 ^ 32 := Nat.succ_lt_succ h
  rw [UInt32.toNat_add]
  exact Nat.mod_eq_of_lt hword

/-- A vertex that is not the last of those up to `v` comes before it. -/
theorem toNat_lt_of_ne {v w : VertexId} (hle : w.toNat < v.toNat + 1) (hne : w ≠ v) :
    w.toNat < v.toNat := by
  have hnat : w.toNat ≠ v.toNat := fun heq => hne (UInt32.toNat_inj.1 heq)
  omega

/-! ## Numbers -/

/-- The numbers on the vertices of a graph and in the slots of its edges. -/
structure Numbers where
  value : VertexId → UInt32
  slot : Nat → UInt32

namespace Numbers

def ofArrays (values slots : Array UInt32) : Numbers where
  value v := values.getD v.toNat default
  slot j := slots.getD j default

/-- The numbers after a turn of `v` that ended with the given view. -/
def after (x : Numbers) (v : VertexId) (view : View UInt32 UInt32) : Numbers where
  value := Function.update x.value v view.value
  slot j := view.slots.getD j default

variable {x : Numbers} {v w : VertexId} {view : View UInt32 UInt32}

@[simp]
theorem value_after_self : (x.after v view).value v = view.value := Function.update_self ..

@[simp]
theorem value_after_of_ne (hne : w ≠ v) : (x.after v view).value w = x.value w :=
  Function.update_of_ne hne ..

@[simp]
theorem slot_after {j : Nat} : (x.after v view).slot j = view.slots.getD j default := rfl

end Numbers

/-- The view is that of a vertex of `g`, before its turn on the numbers `x`. -/
structure View.Shows (view : View UInt32 UInt32) (g : Adjacency) (x : Numbers) : Prop where
  adjacency : view.adjacency = g
  lt_vertexCount : view.id.toNat < g.vertexCount
  value : view.value = x.value view.id
  slot : ∀ j, view.slots.getD j default = x.slot j
  size : view.slots.size = g.edgeCount

theorem View.Shows.id_lt {l : EdgeList} {view : View UInt32 UInt32} {x : Numbers}
    (h : view.Shows l.graph x) : view.id.toNat < l.vertexCount := by
  have hlt := h.lt_vertexCount
  rwa [Adjacency.vertexCount_ofEdges] at hlt

/-- A turn that ends with the view that it began with leaves the numbers as they were. -/
theorem Numbers.after_eq {g : Adjacency} {x : Numbers} {view : View UInt32 UInt32}
    (h : view.Shows g x) : x.after view.id view = x := by
  have hvalue : Function.update x.value view.id view.value = x.value := by
    rw [h.value, Function.update_eq_self]
  have hslot : (fun j => view.slots.getD j default) = x.slot := funext h.slot
  rw [after, hvalue, hslot]

/-- The update succeeds with the given activity, and takes no vertex off the current sweep. -/
structure Update.Completes (u : Update Unit UInt32 UInt32) (g : Adjacency) (a : Activity) :
    Prop where
  verdict : u.verdict = .ok a
  size : u.view.slots.size = g.edgeCount
  keeps : ∀ first last, .remove first last ∉ u.requests

namespace Relaxation

variable {g : Adjacency} {start step : View UInt32 UInt32 → Update Unit UInt32 UInt32}
  {settings : Settings} {k i : Nat} {s : Stage Unit UInt32 UInt32} {v : VertexId}

/-- The relaxation with the given first turn and later turns. -/
def ofTurns (start step : View UInt32 UInt32 → Update Unit UInt32 UInt32) : Relaxation where
  update ctx _ view := if ctx.iteration = 0 then start view else step view

/-- What is to be shown of the turns of a relaxation. -/
structure Law (g : Adjacency) (start step : View UInt32 UInt32 → Update Unit UInt32 UInt32) where
  /-- What the first turns of the vertices below `k` bring about. -/
  started : (k : Nat) → Numbers → Prop
  /-- What holds from then on. -/
  sound : Numbers → Prop
  /-- The vertex has nothing to do. -/
  stable : Numbers → VertexId → Prop
  started_zero : ∀ x, started 0 x
  sound_of_started : ∀ {x}, started g.vertexCount x → sound x
  starts : ∀ {x view}, view.Shows g x → started view.id.toNat x →
    ∃ a, (start view).Completes g a ∧
      started (view.id.toNat + 1) (x.after view.id (start view).view) ∧
      ((∀ y, started g.vertexCount y → stable y view.id) ∨
        ∃ urgent, .add view.id urgent ∈ (start view).requests)
  steps : ∀ {x view}, view.Shows g x → sound x →
    ∃ a, (step view).Completes g a ∧ sound (x.after view.id (step view).view) ∧
      ∀ w : VertexId, w.toNat < g.vertexCount → ¬ stable (x.after view.id (step view).view) w →
        (w ≠ view.id ∧ ¬ stable x w) ∨
          (a = .changed ∧ ∃ urgent, .add w urgent ∈ (step view).requests)

/-- On an edge list that is accepted a relaxation ends as its runs do on the graph of the list, in
which every number is zero. -/
theorem exists_solve {program : Relaxation} {l : EdgeList}
    {ends : Finished Unit UInt32 UInt32 → Prop} (hg : Adjacency.ofEdgeList l = .ok g)
    (h : Yields (program.run settings () ⟨l.graph, Array.replicate l.graph.vertexCount default,
      Array.replicate l.graph.edgeCount default⟩) (fun _ => False) ends) :
    ∃ run, program.solve l settings = .ok ⟨run.report, run.graph.values⟩ ∧ ends run := by
  obtain rfl : g = l.graph := Adjacency.eq_ofEdges_of_ofEdgeList hg
  obtain ⟨run, hrun, hends⟩ := h.exists_ok
  refine ⟨run, ?_, hends⟩
  simp only [solve, VertexProgram.runOn, VertexProgram.runToEnd, DataGraph.ofEdgeList, hg,
    Except.map, bind, Except.bind, DataGraph.ofAdjacency, hrun]
  rfl

end Relaxation

def Finished.numbers (run : Finished Unit UInt32 UInt32) : Numbers :=
  .ofArrays run.graph.values run.graph.slots

/-- The number that a vertex ended with. -/
def Relaxed.value (r : Relaxed) (v : VertexId) : UInt32 := r.values.getD v.toNat default

/-- Results for as many vertices with the same numbers are the same. -/
theorem Relaxed.values_congr {r r' : Relaxed} {n : Nat} (hn : n ≤ maxWord)
    (hsize : r.values.size = n) (hsize' : r'.values.size = n)
    (hsame : ∀ v : VertexId, v.toNat < n → r.value v = r'.value v) : r.values = r'.values := by
  refine Array.ext (hsize.trans hsize'.symm) fun i hi hi' => ?_
  have hword : (UInt32.ofNat i).toNat = i := UInt32.toNat_ofNat_of_lt' (by
    show i < 4294967296
    unfold maxWord at hn
    omega)
  have hvalue := hsame (UInt32.ofNat i) (by omega)
  simpa [Relaxed.value, hword, hi, hi'] using hvalue

/-- A run that evaluates to convergence has found the numbers to which it evaluates. -/
theorem Relaxed.exists_converged {x : Except Fault Relaxed} {values : Array UInt32}
    (h : x.toOption.any (fun found =>
      found.report.outcome == .converged && found.values == values) = true) :
    ∃ found, x = .ok found ∧ found.report.outcome = .converged ∧ found.values = values := by
  obtain ⟨found, hfound, hboth⟩ := Yields.exists_ok_of_any h
  rw [Bool.and_eq_true, beq_iff_eq, beq_iff_eq] at hboth
  exact ⟨found, hfound, hboth⟩

namespace Stage

variable {g : Adjacency} {settings : Settings} {s : Stage Unit UInt32 UInt32} {v : VertexId}
  {u : Update Unit UInt32 UInt32} {a a' : Activity}

def numbers (s : Stage Unit UInt32 UInt32) : Numbers := .ofArrays s.values s.slots

theorem numbers_updated (hv : v.toNat < s.values.size) :
    (s.updated settings v u a).numbers = s.numbers.after v u.view := by
  have hvalue : ∀ w : VertexId,
      (s.updated settings v u a).numbers.value w = (s.numbers.after v u.view).value w := by
    intro w
    by_cases hwv : w = v
    · subst hwv
      simp [numbers, Numbers.ofArrays, Stage.updated, hv]
    · have hnat : v.toNat ≠ w.toNat := fun heq => hwv (UInt32.toNat_inj.1 heq).symm
      simp [numbers, Numbers.ofArrays, Stage.updated, hwv, hnat]
  exact congrArg (Numbers.mk · _) (funext hvalue)

/-- The arrays have the sizes of the graph, and no hook has asked for the end. -/
structure Shaped (g : Adjacency) (s : Stage Unit UInt32 UInt32) : Prop where
  unasked : s.control.last = none
  size_values : s.values.size = g.vertexCount
  size_slots : s.slots.size = g.edgeCount

theorem Shaped.updated (h : s.Shaped g) (hu : u.Completes g a) :
    (s.updated settings v u a').Shaped g where
  unasked := h.unasked
  size_values := Array.size_setIfInBounds.trans h.size_values
  size_slots := hu.size

theorem Shaped.shows (h : s.Shaped g) (hv : v.toNat < g.vertexCount) :
    View.Shows ⟨v, s.values.getD v.toNat default, g, s.slots⟩ g s.numbers :=
  ⟨rfl, hv, rfl, fun _ => rfl, h.size_slots⟩

theorem InIteration.vertexCount_le_bound {i : Nat} (hs : s.InIteration g i)
    (hn : g.vertexCount ≤ maxWord) : g.vertexCount ≤ s.tasks.bound := by
  rw [hs.bound]
  omega

end Stage

namespace Relaxation.Law

variable {g : Adjacency} {start step : View UInt32 UInt32 → Update Unit UInt32 UInt32}
  {L : Law g start step} {settings : Settings} {k i limit : Nat}
  {s : Stage Unit UInt32 UInt32} {v : VertexId} {fails : Aborted Unit UInt32 UInt32 → Prop}
  {rounds : Array RoundSummary} {outcome : Outcome}

/-! ## The invariants -/

/-- After all first turns `v` is stable, so it need not request another turn. -/
def Rests (L : Law g start step) (v : VertexId) : Prop :=
  ∀ x, L.started g.vertexCount x → L.stable x v

/-- In iteration 0 nobody is left out, and only vertices that rest do without a next turn. -/
structure Starting (L : Law g start step) (settings : Settings) (k : Nat)
    (s : Stage Unit UInt32 UInt32) : Prop where
  shaped : s.Shaped g
  started : L.started k s.numbers
  turns : settings.selective = true → ∀ v : VertexId, v.toNat < g.vertexCount →
    (k ≤ v.toNat → s.tasks.isDue v = true) ∧
      (v.toNat < k → L.Rests v ∨ s.tasks.isRequested v = true)

/-- In later iterations every vertex that is not stable has a turn to come. -/
structure Settled (L : Law g start step) (settings : Settings) (k : Nat)
    (s : Stage Unit UInt32 UInt32) : Prop where
  shaped : s.Shaped g
  sound : L.sound s.numbers
  settling : s.Settling settings g (fun s v => L.stable s.numbers v) k

/-! ## One turn -/

private theorem updateOf_start (hs : s.InIteration g 0) :
    s.updateOf (ofTurns start step) settings g v =
      start ⟨v, s.values.getD v.toNat default, g, s.slots⟩ := by
  simp only [Stage.updateOf, ofTurns, hs.iteration]
  rfl

theorem updateOf_step (hs : s.InIteration g i) (hpos : 0 < i) (hi : i < 4294967296) :
    s.updateOf (ofTurns start step) settings g v =
      step ⟨v, s.values.getD v.toNat default, g, s.slots⟩ := by
  have hlater : UInt32.ofNat i ≠ 0 := by
    intro hzero
    have hword := congrArg UInt32.toNat hzero
    rw [UInt32.toNat_ofNat_of_lt' hi] at hword
    exact absurd hword (Nat.ne_of_gt hpos)
  simp only [Stage.updateOf, ofTurns, hs.iteration, if_neg hlater]

theorem Starting.visit (h : L.Starting settings v.toNat s) (hs : s.InIteration g 0)
    (hn : g.vertexCount ≤ maxWord) (hv : v.toNat < g.vertexCount) :
    Yields (s.visit (ofTurns start step) settings g v) fails
      (L.Starting settings (v.toNat + 1)) := by
  obtain ⟨a, hcompletes, hstarted, hnext⟩ := L.starts (h.shaped.shows hv) h.started
  have hbound := hs.vertexCount_le_bound hn
  refine Stage.visit_yields (fun hsel hdue => ?_) (fun fault hfault => ?_) fun activity _ hok => ?_
  · rw [(h.turns hsel v hv).1 (Nat.le_refl _)] at hdue
    cases hdue
  · rw [updateOf_start hs, hcompletes.verdict] at hfault
    cases hfault
  · rw [updateOf_start hs] at hok ⊢
    refine ⟨h.shaped.updated hcompletes, ?_, fun hsel w hw => ?_⟩
    · rw [Stage.numbers_updated (by rwa [h.shaped.size_values])]
      exact hstarted
    simp only [Stage.updated, if_pos hsel]
    refine ⟨fun hle => ?_, fun hlt => ?_⟩
    · have hne : w ≠ v := by
        rintro rfl
        omega
      have hdue := (h.turns hsel w hw).1 (by omega)
      exact Tasks.isDue_grantAll hcompletes.keeps ((Tasks.isDue_take hne).trans hdue)
    · by_cases hwv : w = v
      · subst hwv
        rcases hnext with hrests | ⟨urgent, hmem⟩
        · exact .inl hrests
        · exact .inr (Tasks.isRequested_of_mem hmem (by rw [Tasks.bound_take]; omega))
      · refine ((h.turns hsel w hw).2 (toNat_lt_of_ne hlt hwv)).imp_right fun hrequested => ?_
        exact Tasks.isRequested_grantAll (Tasks.isRequested_take.trans hrequested)

theorem Settled.visit (h : L.Settled settings v.toNat s) (hs : s.InIteration g i) (hpos : 0 < i)
    (hi : i < 4294967296) (hn : g.vertexCount ≤ maxWord) (hv : v.toNat < g.vertexCount) :
    Yields (s.visit (ofTurns start step) settings g v) fails
      (L.Settled settings (v.toNat + 1)) := by
  obtain ⟨a, hcompletes, hsound, hunsettled⟩ := L.steps (h.shaped.shows hv) h.sound
  refine Stage.visit_yields (fun hsel hdue => ?_) (fun fault hfault => ?_) fun activity _ hok => ?_
  · exact ⟨h.shaped, h.sound, h.settling.skip hsel hdue⟩
  · rw [updateOf_step hs hpos hi, hcompletes.verdict] at hfault
    cases hfault
  · rw [updateOf_step hs hpos hi] at hok ⊢
    obtain rfl : a = activity := Except.ok.inj (hcompletes.verdict.symm.trans hok)
    have hnumbers : (s.updated settings v
        (step ⟨v, s.values.getD v.toNat default, g, s.slots⟩) a).numbers =
        s.numbers.after v (step ⟨v, s.values.getD v.toNat default, g, s.slots⟩).view :=
      Stage.numbers_updated (by rwa [h.shaped.size_values])
    refine ⟨h.shaped.updated hcompletes, hnumbers ▸ hsound, ?_⟩
    refine h.settling.updated (hs.vertexCount_le_bound hn) hcompletes.keeps fun w hw hunstable => ?_
    rw [hnumbers] at hunstable
    exact hunsettled w hw hunstable

/-! ## From one iteration to the next -/

/-- An iteration begins settled if the vertices that are not stable were requested. -/
theorem settled_enter {iteration : UInt32} (hshaped : s.Shaped g) (hsound : L.sound s.numbers)
    (hready : s.Ready settings g fun s v => L.stable s.numbers v) :
    L.Settled settings 0 (s.enter iteration) := by
  have hsettling : ((s.enter iteration).run Hook.idle).Settling settings g
      (fun s v => L.stable s.numbers v) 0 := hready.enter fun _ => id
  exact ⟨⟨hshaped.unasked, hshaped.size_values, hshaped.size_slots⟩, hsound, hsettling⟩

/-- After iteration 0 every vertex is stable or due. -/
theorem Starting.next {iteration : UInt32} (h : L.Starting settings g.vertexCount s) :
    L.Settled settings 0 ((s.close (ofTurns start step)).enter iteration) := by
  have hready : (s.close (ofTurns start step)).Ready settings g
      fun s v => L.stable s.numbers v := by
    intro v hv
    by_cases hrests : L.Rests v
    · exact .inl (hrests _ h.started)
    · exact .inr fun hsel => ((h.turns hsel v hv).2 hv).resolve_left hrests
  refine settled_enter ⟨h.shaped.unasked, h.shaped.size_values, h.shaped.size_slots⟩ ?_ hready
  exact L.sound_of_started h.started

theorem Settled.next {iteration : UInt32} (h : L.Settled settings g.vertexCount s) :
    L.Settled settings 0 ((s.close (ofTurns start step)).enter iteration) := by
  have hready : (s.close (ofTurns start step)).Ready settings g
      fun s v => L.stable s.numbers v := h.settling.close fun _ => id
  exact settled_enter ⟨h.shaped.unasked, h.shaped.size_values, h.shaped.size_slots⟩ h.sound hready

/-! ## Whole runs -/

/-- What holds in iteration `i` when the vertices below `k` have had their turn. -/
inductive Phase (L : Law g start step) (settings : Settings) (i k : Nat)
    (s : Stage Unit UInt32 UInt32) : Prop where
  | starting (hi : i = 0) (h : L.Starting settings k s)
  | settled (hi : 0 < i) (h : L.Settled settings k s)

/-- A run begins with all first turns to come. -/
theorem starting_enter {iteration : UInt32} {values slots : Array UInt32}
    (hn : g.vertexCount ≤ maxWord) (hvalues : values.size = g.vertexCount)
    (hslots : slots.size = g.edgeCount) :
    L.Starting settings 0 (Stage.enter
      { state := (), values, slots, tasks := (Tasks.ofVertexCount g.vertexCount).addAll }
      iteration) := by
  have hqueued : Stage.Queued settings g 0
      { state := (), values, slots, tasks := (Tasks.ofVertexCount g.vertexCount).addAll } :=
    Stage.queued_addAll hn
  refine ⟨⟨rfl, hvalues, hslots⟩, L.started_zero _, fun hsel v hv => ?_⟩
  exact ⟨(hqueued hsel v hv).1, fun hlt => absurd hlt (Nat.not_lt_zero _)⟩

/-- How a run with the given iteration ceiling ends. -/
structure Ended (L : Law g start step) (limit : Nat) (run : Finished Unit UInt32 UInt32) :
    Prop where
  size_values : run.graph.values.size = g.vertexCount
  sound : run.report.outcome = .converged ∨ 0 < limit → L.sound run.numbers
  stable : run.report.outcome = .converged → ∀ {v : VertexId}, v.toNat < g.vertexCount →
    L.stable run.numbers v

private theorem Phase.stops (h : L.Phase settings i g.vertexCount s) (hs : s.InIteration g i)
    (hend : (s.close (ofTurns start step)).outcome? settings s.summary = some outcome) :
    L.Ended limit ((s.close (ofTurns start step)).finish g outcome rounds) := by
  cases h with
  | starting hzero h =>
    subst hzero
    refine ⟨h.shaped.size_values, fun _ => L.sound_of_started h.started, fun _ v hv => ?_⟩
    obtain ⟨-, hquiet⟩ := Stage.outcome?_eq_some (s := s.close (ofTurns start step))
      h.shaped.unasked hend
    rcases hquiet with hquiet | ⟨hsel, hactive⟩
    · have hfirst := (Stage.converged_summary.1 hquiet).1
      rw [hs.iteration] at hfirst
      exact absurd hfirst (by decide)
    · have hdue : s.tasks.isRequested v = false := Tasks.isDue_eq_false hactive
      refine ((h.turns hsel v hv).2 hv).resolve_right ?_ _ h.started
      rw [hdue]
      exact Bool.false_ne_true
  | settled hpos h =>
    refine ⟨h.shaped.size_values, fun _ => h.sound, fun _ v hv => ?_⟩
    obtain ⟨rfl, -⟩ := Stage.outcome?_eq_some (s := s.close (ofTurns start step))
      h.shaped.unasked hend
    exact h.settling.stable_of_converged hend hv

private theorem Phase.atCeiling (h : L.Phase settings limit 0 s) :
    L.Ended limit (s.finish g .iterationLimit rounds) := by
  cases h with
  | starting hzero h =>
    refine ⟨h.shaped.size_values, fun hend => ?_, nofun⟩
    exact absurd (hend.resolve_left nofun) (by omega)
  | settled hpos h => exact ⟨h.shaped.size_values, fun _ => h.sound, nofun⟩

private theorem Phase.visit (h : L.Phase settings i v.toNat s) (hs : s.InIteration g i)
    (hi : i < 4294967296) (hn : g.vertexCount ≤ maxWord) (hv : v.toNat < g.vertexCount) :
    Yields (s.visit (ofTurns start step) settings g v) (fun _ => False)
      (L.Phase settings i (v.toNat + 1)) := by
  cases h with
  | starting hzero h => exact (h.visit (hzero ▸ hs) hn hv).imp fun _ => .starting hzero
  | settled hpos h => exact (h.visit hs hpos hi hn hv).imp fun _ => .settled hpos

/-- The phases as an invariant of runs. -/
private def phases (L : Law g start step) (settings : Settings) (hn : g.vertexCount ≤ maxWord) :
    RunInvariant (ofTurns start step) settings g fun _ => False where
  between rounds s := L.Phase settings rounds.size 0 (s.enter (UInt32.ofNat rounds.size))
  during rounds k s := L.Phase settings rounds.size k s
  begins _ h := h
  entersWindow _ h := h
  leavesWindow _ h := h
  visits {rounds k s} hround hk hs h := by
    have hi := Nat.lt_trans hround settings.maxIterations.toNat_lt
    exact Stage.visit_ofNat (Nat.le_succ_of_le hn) hk h fun v hv h => h.visit hs hi hn hv
  ends {rounds s} _ _ h _ := by
    have hpos : 0 < (rounds.push s.summary).size := by simp
    cases h with
    | starting _ h => exact .settled hpos h.next
    | settled _ h => exact .settled hpos h.next

/-- **How a run ends**, from any values in the graph. -/
theorem run_yields (L : Law g start step) (settings : Settings) (hn : g.vertexCount ≤ maxWord)
    (values slots : Array UInt32) (hvalues : values.size = g.vertexCount)
    (hslots : slots.size = g.edgeCount) :
    Yields ((ofTurns start step).run settings () ⟨g, values, slots⟩) (fun _ => False)
      (L.Ended settings.maxIterations.toNat) := by
  refine (phases L settings hn).yields ?_ ?_ ?_ ?_
  · unfold maxWord at hn
    omega
  · exact .starting rfl (starting_enter hn hvalues hslots)
  · intro rounds s outcome _ hs h hend
    exact Phase.stops h hs hend
  · intro rounds s hsize h
    have hphase : L.Phase settings rounds.size 0 (s.enter (UInt32.ofNat rounds.size)) := h
    rw [hsize] at hphase
    exact hphase.atCeiling

/-- A run on an edge list that is accepted comes to its end. -/
theorem solve_yields {l : EdgeList} {start step : View UInt32 UInt32 → Update Unit UInt32 UInt32}
    (L : Law l.graph start step) (settings : Settings) (hn : l.vertexCount ≤ maxWord)
    (hg : Adjacency.ofEdgeList l = .ok g) :
    ∃ run, (ofTurns start step).solve l settings = .ok ⟨run.report, run.graph.values⟩ ∧
      L.Ended settings.maxIterations.toNat run := by
  have hgraph : l.graph.vertexCount ≤ maxWord := by rwa [Adjacency.vertexCount_ofEdges]
  exact exists_solve hg (L.run_yields settings hgraph _ _ Array.size_replicate Array.size_replicate)

/-- What was found is what a run ended with. -/
theorem exists_ended {l : EdgeList} {found : Relaxed}
    {start step : View UInt32 UInt32 → Update Unit UInt32 UInt32} (L : Law l.graph start step)
    (hn : l.vertexCount ≤ maxWord) (h : (ofTurns start step).solve l settings = .ok found) :
    ∃ run, found = ⟨run.report, run.graph.values⟩ ∧
      L.Ended settings.maxIterations.toNat run := by
  cases hg : Adjacency.ofEdgeList l with
  | error fault =>
    simp only [solve, VertexProgram.runOn, DataGraph.ofEdgeList, hg] at h
    cases h
  | ok g =>
    obtain ⟨run, hrun, hended⟩ := L.solve_yields settings hn hg
    rw [hrun] at h
    cases h
    exact ⟨run, rfl, hended⟩

/-- **When a run has converged every vertex is stable.** -/
theorem exists_stable {l : EdgeList} {found : Relaxed}
    {start step : View UInt32 UInt32 → Update Unit UInt32 UInt32} (L : Law l.graph start step)
    (hn : l.vertexCount ≤ maxWord) (h : (ofTurns start step).solve l settings = .ok found)
    (hconverged : found.report.outcome = .converged) :
    ∃ x : Numbers, found.value = x.value ∧ found.values.size = l.vertexCount ∧ L.sound x ∧
      ∀ {v : VertexId}, v.toNat < l.vertexCount → L.stable x v := by
  obtain ⟨run, rfl, hended⟩ := L.exists_ended hn h
  refine ⟨run.numbers, rfl, hended.size_values.trans Adjacency.vertexCount_ofEdges,
    hended.sound (.inl hconverged), fun hv => ?_⟩
  exact hended.stable hconverged (by rwa [Adjacency.vertexCount_ofEdges])

end Relaxation.Law

end VertexSweep
