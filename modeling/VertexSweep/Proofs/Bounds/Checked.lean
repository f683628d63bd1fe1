import VertexSweep.Proofs.Bounds.Views
import VertexSweep.Proofs.Sweep.Coupling

/-!
# Runs with every access tested

`CheckedProgram.run` is the run of a vertex program in which nothing is looked up without a test:
the value of a vertex must be there when it has its turn, and what an update or a hook looks up
may be missing too. A miss ends the run with a `Trap` of its own, apart from the failures of
updates. A checked program follows a program (`CheckedProgram.Follows`) if nothing is missing as
long as the program state is fit, and it does the same; then the two runs agree
(`CheckedProgram.Follows.run_eq`).
-/

namespace VertexSweep

/-- Why a checked computation does not return. -/
inductive Trap (ε : Type) where
  /-- Something that was looked up was not there. -/
  | missing
  /-- The computation failed for a reason of its own. -/
  | failed (error : ε)
deriving DecidableEq, Repr

namespace Trap

variable {ε δ α : Type}

def map (f : ε → δ) : Trap ε → Trap δ
  | missing => missing
  | failed error => failed (f error)

/-- What was looked up. -/
def find : Option α → Except (Trap ε) α
  | some a => .ok a
  | none => .error missing

end Trap

variable {σ V E : Type}

/-- A vertex program whose accesses are tested. Of its view an update looks at the id, the value and
the slots only. There are no hooks around windows. -/
structure CheckedProgram (σ V E : Type) where
  update : Context → σ → View V E → Option (Update σ V E)
  beforeIteration : Hook σ := Hook.idle
  /-- Runs after an iteration, with its summary. -/
  afterIteration : RoundSummary → Control → σ → Option (σ × Option UInt32) :=
    fun _ control state => some (Hook.idle control state)

namespace CheckedProgram

/-- Gives `v` its turn, if it is due, or the run is dense. -/
def visit (program : CheckedProgram σ V E) (settings : Settings) (g : Adjacency)
    (s : Stage σ V E) (v : VertexId) : Except (Trap (Aborted σ V E)) (Stage σ V E) := do
  let (due, tasks) := s.tasks.take v
  if settings.selective && !due then
    return { s with tasks }
  else
    let value ← Trap.find s.values[v.toNat]?
    let u ← Trap.find
      (program.update ⟨s.control.iteration, settings⟩ s.state ⟨v, value, g, s.slots⟩)
    match u.verdict with
    | .error fault => throw (.failed (s.stopped g v u fault))
    | .ok activity => return s.updated settings v u activity

/-- Sweeps over one window. -/
def sweep (program : CheckedProgram σ V E) (settings : Settings) (g : Adjacency)
    (s : Stage σ V E) (w : Window) : Except (Trap (Aborted σ V E)) (Stage σ V E) :=
  w.vertices.foldlM (program.visit settings g) s

/-- Carries out one iteration, up to the point where the next sweep's tasks become due. -/
def iterate (program : CheckedProgram σ V E) (settings : Settings) (g : Adjacency)
    (ws : List Window) (s : Stage σ V E) (iteration : UInt32) :
    Except (Trap (Aborted σ V E)) (RoundSummary × Stage σ V E) := do
  let s ← ws.foldlM (program.sweep settings g) ((s.enter iteration).run program.beforeIteration)
  let wished ← Trap.find (program.afterIteration s.summary s.control s.state)
  let closed := s.run fun _ _ => wished
  return (s.summary, { closed with tasks := closed.tasks.advance })

/-- Carries out at most `left` iterations, the next of which has the given number. -/
def runFrom (program : CheckedProgram σ V E) (settings : Settings) (g : Adjacency)
    (ws : List Window) (s : Stage σ V E) (rounds : Array RoundSummary) (iteration : UInt32) :
    (left : Nat) → Except (Trap (Aborted σ V E)) (Finished σ V E)
  | 0 => .ok (s.finish g .iterationLimit rounds)
  | left + 1 => do
    let (round, s) ← program.iterate settings g ws s iteration
    match s.outcome? settings round with
    | some outcome => return s.finish g outcome (rounds.push round)
    | none => program.runFrom settings g ws s (rounds.push round) (iteration + 1) left

/-- Runs a checked program on a graph. -/
def run (program : CheckedProgram σ V E) (settings : Settings) (state : σ)
    (graph : DataGraph V E) : Except (Trap (Aborted σ V E)) (Finished σ V E) :=
  match graph with
  | ⟨g, values, slots⟩ =>
    let n := values.size
    program.runFrom settings g (windows n settings.intervalSize)
      { state, values, slots, tasks := (Tasks.ofVertexCount n).addAll } #[] 0
      settings.maxIterations.toNat

/-- The graph of an edge list, in which every value is the default, and its compact form. -/
def accept [Inhabited V] [Inhabited E] (l : EdgeList) :
    Except (Trap Fault) (Topology × DataGraph V E) := do
  let adjacency ← (Adjacency.ofEdgeList l).mapError .failed
  let t ← Trap.find (Topology.build? l)
  return (t, {
    adjacency
    values := Array.replicate t.vertexCount default
    slots := Array.replicate l.size default })

/-- Runs a checked program on the graph of an edge list, from the state for so many vertices. -/
def runOn [Inhabited V] [Inhabited E] (program : Topology → CheckedProgram σ V E)
    (settings : Settings) (state : Nat → σ) (l : EdgeList) :
    Except (Trap Fault) (Finished σ V E) := do
  let (t, graph) ← accept l
  ((program t).run settings (state t.vertexCount) graph).mapError (·.map (·.fault))

/-! ## Programs that are followed -/

/-- On the graph of `l`, and as long as the state fits, the checked program misses nothing and does
what the program does. -/
structure Follows (checked : CheckedProgram σ V E) (program : VertexProgram σ V E) (l : EdgeList)
    (fits : σ → Prop) : Prop where
  update : ∀ {ctx state} {view : View V E}, fits state → view.Opens l →
    checked.update ctx state view = some (program.update ctx state view)
  size : ∀ {ctx state} {view : View V E}, fits state → view.Opens l →
    (program.update ctx state view).view.slots.size = l.edges.size
  fits_update : ∀ {ctx state} {view : View V E}, fits state → view.Opens l →
    fits (program.update ctx state view).state
  before : checked.beforeIteration = program.beforeIteration
  fits_before : ∀ {control state}, fits state → fits (program.beforeIteration control state).1
  after : ∀ {round control state}, fits state →
    checked.afterIteration round control state = some (program.afterIteration round control state)
  fits_after : ∀ {round control state}, fits state →
    fits (program.afterIteration round control state).1
  beforeWindow : ∀ w, program.beforeWindow w = Hook.idle
  afterWindow : ∀ w, program.afterWindow w = Hook.idle

/-- The arrays have the sizes of the graph, and the program state fits. -/
structure Fits (l : EdgeList) (fits : σ → Prop) (s : Stage σ V E) : Prop where
  values : s.values.size = l.vertexCount
  slots : s.slots.size = l.edges.size
  state : fits s.state

/-- A failure that was not a miss is the same failure. -/
abbrev Fails {ε : Type} (error : ε) (trap : Trap ε) : Prop := trap = .failed error

namespace Follows

variable [Inhabited V] {checked : CheckedProgram σ V E} {program : VertexProgram σ V E}
  {l : EdgeList} {fits : σ → Prop} {settings : Settings} {s : Stage σ V E} {v : VertexId}

/-- A checked turn is a turn, and leaves a stage that fits. -/
theorem visit_agree (h : checked.Follows program l fits) (hs : Fits l fits s)
    (hv : v.toNat < l.vertexCount) :
    Agree (s.visit program settings l.graph v) (checked.visit settings l.graph s v) Fails
      fun s' t' => t' = s' ∧ Fits l fits s' := by
  have hvalue : s.values[v.toNat]? = some (s.values.getD v.toNat default) := by
    have hlt : v.toNat < s.values.size := hs.values ▸ hv
    simp [hlt]
  have hview : View.Opens ⟨v, s.values.getD v.toNat default, l.graph, s.slots⟩ l :=
    ⟨rfl, hv, hs.slots⟩
  have hupdate : checked.update ⟨s.control.iteration, settings⟩ s.state
      ⟨v, s.values.getD v.toNat default, l.graph, s.slots⟩ =
        some (s.updateOf program settings l.graph v) := h.update hs.state hview
  have hsize : (s.updateOf program settings l.graph v).view.slots.size = l.edges.size :=
    h.size hs.state hview
  have hstate : fits (s.updateOf program settings l.graph v).state := h.fits_update hs.state hview
  rw [Stage.visit_eq]
  unfold CheckedProgram.visit
  simp only [Tasks.fst_take, hvalue, Trap.find]
  split
  · rename_i hskip
    -- Nothing is taken from the schedule when a vertex is passed over, since it was not due.
    have hdue : s.tasks.isDue v = false := by
      simp only [Bool.and_eq_true, Bool.not_eq_true'] at hskip
      exact hskip.2
    rw [Tasks.take_of_not_isDue hdue]
    exact ⟨rfl, hs⟩
  · simp only [bind, Except.bind, hupdate]
    cases (s.updateOf program settings l.graph v).verdict with
    | error fault => rfl
    | ok activity => exact ⟨rfl, Array.size_setIfInBounds.trans hs.values, hsize, hstate⟩

theorem sweep_agree (h : checked.Follows program l fits) {w : Window}
    (hw : ∀ v ∈ w.vertices, v.toNat < l.vertexCount) (hs : Fits l fits s) :
    Agree (s.sweep program settings l.graph w) (checked.sweep settings l.graph s w) Fails
      fun s' t' => t' = s' ∧ Fits l fits s' := by
  have hidle : ∀ s : Stage σ V E, s.run Hook.idle = s := fun _ => rfl
  have hfold : Agree (w.vertices.foldlM (Stage.visit program settings l.graph) s)
      (w.vertices.foldlM (checked.visit settings l.graph) s) Fails
      fun s' t' => t' = s' ∧ Fits l fits s' := by
    refine Agree.foldlM (fun v hv s' t' hboth => ?_) ⟨rfl, hs⟩
    obtain ⟨rfl, hfits⟩ := hboth
    exact h.visit_agree hfits (hw v hv)
  unfold Stage.sweep CheckedProgram.sweep
  simp only [h.beforeWindow, h.afterWindow, hidle, bind_pure]
  exact hfold

/-- A checked iteration is an iteration. -/
theorem iterate_agree (h : checked.Follows program l fits) (settings : Settings)
    {ws : List Window} (hws : ∀ w ∈ ws, ∀ v ∈ w.vertices, v.toNat < l.vertexCount)
    (iteration : UInt32) (hs : Fits l fits s) :
    Agree (s.iterate program settings l.graph ws iteration)
      (checked.iterate settings l.graph ws s iteration) Fails
      fun out out' => out' = out ∧ Fits l fits out.2 := by
  have hbegun : Fits l fits ((s.enter iteration).run program.beforeIteration) :=
    ⟨hs.values, hs.slots, h.fits_before hs.state⟩
  rw [Stage.iterate_eq]
  unfold CheckedProgram.iterate
  rw [h.before]
  refine Agree.bind (P := fun s' t' => t' = s' ∧ Fits l fits s') ?_ ?_
  · refine Agree.foldlM (fun w hw s' t' hboth => ?_) ⟨rfl, hbegun⟩
    obtain ⟨rfl, hfits⟩ := hboth
    exact h.sweep_agree (hws w hw) hfits
  · rintro s' t' ⟨rfl, hfits⟩
    simp only [h.after hfits.state, Trap.find]
    exact ⟨rfl, hfits.values, hfits.slots, h.fits_after hfits.state⟩

theorem runFrom_agree (h : checked.Follows program l fits) {ws : List Window}
    (hws : ∀ w ∈ ws, ∀ v ∈ w.vertices, v.toNat < l.vertexCount) (left : Nat)
    {rounds : Array RoundSummary} {iteration : UInt32} (hs : Fits l fits s) :
    Agree (s.runFrom program settings l.graph ws rounds iteration left)
      (checked.runFrom settings l.graph ws s rounds iteration left) Fails
      fun run run' => run' = run := by
  induction left generalizing s rounds iteration with
  | zero => rfl
  | succ left ih =>
    have hiterate := h.iterate_agree settings hws iteration hs
    unfold Stage.runFrom CheckedProgram.runFrom
    cases hplain : s.iterate program settings l.graph ws iteration <;>
      cases hchecked : checked.iterate settings l.graph ws s iteration <;>
      rw [hplain, hchecked] at hiterate
    · exact hiterate
    · exact hiterate.elim
    · exact hiterate.elim
    · rename_i out out'
      obtain ⟨rfl, hfits⟩ := hiterate
      simp only [bind, Except.bind]
      cases out'.2.outcome? settings out'.1 with
      | some outcome => rfl
      | none => exact ih hfits

/-- **A checked program runs as the program does that it follows**: the runs end with the same
result, or with the same failure, and nothing that is looked up is missing. -/
theorem run_eq (h : checked.Follows program l fits) (hn : l.vertexCount ≤ maxWord)
    (settings : Settings) {state : σ} (values : Array V) (slots : Array E) (hstate : fits state)
    (hvalues : values.size = l.vertexCount) (hslots : slots.size = l.edges.size) :
    checked.run settings state ⟨l.graph, values, slots⟩ =
      (program.run settings state ⟨l.graph, values, slots⟩).mapError .failed := by
  have hword : l.vertexCount ≤ 4294967296 := Nat.le_succ_of_le hn
  have hagree : Agree (program.run settings state ⟨l.graph, values, slots⟩)
      (checked.run settings state ⟨l.graph, values, slots⟩) Fails fun run run' => run' = run := by
    unfold VertexProgram.run CheckedProgram.run
    simp only [Adjacency.vertexCount_ofEdges, hvalues]
    refine h.runFrom_agree (fun w hw v hv => ?_) _ ⟨hvalues, hslots, hstate⟩
    -- The windows cover the vertices of the graph and no others.
    have hmem : v ∈ (windows l.vertexCount settings.intervalSize).flatMap Window.vertices :=
      List.mem_flatMap.2 ⟨w, hw, hv⟩
    rw [flatMap_vertices_windows hword] at hmem
    obtain ⟨k, hk, rfl⟩ := List.mem_map.1 hmem
    rw [List.mem_range] at hk
    rwa [UInt32.toNat_ofNat_of_lt' (Nat.lt_of_lt_of_le hk hword)]
  cases hplain : program.run settings state ⟨l.graph, values, slots⟩ <;>
    cases hchecked : checked.run settings state ⟨l.graph, values, slots⟩ <;>
    rw [hplain, hchecked] at hagree
  · exact congrArg Except.error hagree
  · exact hagree.elim
  · exact hagree.elim
  · exact congrArg Except.ok hagree

end Follows

/-- An accepted edge list has a compact form. -/
theorem exists_accept [Inhabited V] [Inhabited E] {l : EdgeList} {g : Adjacency} (hl : l.Built)
    (hg : Adjacency.ofEdgeList l = .ok g) :
    ∃ t : Topology, t.Packs l.graph ∧
      accept l = .ok (t, (.ofAdjacency l.graph : DataGraph V E)) := by
  obtain rfl : g = l.graph := Adjacency.eq_ofEdges_of_ofEdgeList hg
  have hsize : l.edges.size ≤ maxWord := by
    unfold Adjacency.ofEdgeList at hg
    split at hg
    · cases hg
    · exact Nat.not_lt.1 ‹_›
  obtain ⟨t, ht, hpacks⟩ := Topology.exists_build? hl hsize
  refine ⟨t, hpacks, ?_⟩
  unfold accept
  rw [hg, ht]
  show Except.ok _ = _
  rw [hpacks.vertexCount]
  rfl

/-- On the graph of any list, accepted or not, a checked program ends as the program does that it
follows. -/
theorem Follows.runOn_eq [Inhabited V] [Inhabited E] {checked : Topology → CheckedProgram σ V E}
    {program : VertexProgram σ V E} {l : EdgeList} {fits : σ → Prop} (state : Nat → σ)
    (h : ∀ {t}, t.Packs l.graph → (checked t).Follows program l fits) (hl : l.Built)
    (hn : l.vertexCount ≤ maxWord) (hstate : fits (state l.vertexCount)) (settings : Settings) :
    runOn checked settings state l =
      (program.runOn settings (state l.vertexCount) l).mapError .failed := by
  unfold runOn VertexProgram.runOn VertexProgram.runToEnd DataGraph.ofEdgeList
  cases hg : Adjacency.ofEdgeList l with
  | error fault =>
    simp only [accept, hg]
    rfl
  | ok g =>
    obtain ⟨t, ht, haccept⟩ := exists_accept (V := V) (E := E) hl hg
    obtain rfl : g = l.graph := Adjacency.eq_ofEdges_of_ofEdgeList hg
    have hcount : l.graph.vertexCount = l.vertexCount := Adjacency.vertexCount_ofEdges
    have hrun := (h ht).run_eq hn settings (Array.replicate l.graph.vertexCount default)
      (Array.replicate l.graph.edgeCount default) hstate (Array.size_replicate.trans hcount)
      Array.size_replicate
    rw [haccept]
    simp only [bind, Except.bind, Except.map, DataGraph.ofAdjacency, ht.vertexCount, hcount]
      at hrun ⊢
    rw [hrun]
    cases program.run settings (state l.vertexCount) _ <;> rfl

end CheckedProgram

end VertexSweep
