import VertexSweep.Match.Simulation
import VertexSweep.Proofs.Sweep.Invariant
import VertexSweep.Relax.Coloring
import VertexSweep.Relax.Components
import VertexSweep.Relax.ShortestPath

/-!
# The window size cannot be seen

A sweep over windows whose hooks are idle is a sweep over their vertices
(`VertexProgram.IgnoresWindows.foldlM_sweep`), and these are the same for every window size
(`flatMap_vertices_windows`). So a program that is idle between windows and whose updates do not
read the window size runs alike for all sizes, up to and including the update that fails, if one
does (`VertexProgram.run_resized`). That holds of the four programs of this library.
-/

namespace VertexSweep

/-- A loop of loops is a loop over the members of all their lists. -/
theorem foldlM_foldlM_eq_flatMap {ε α β ι : Type} {f : β → ι → Except ε β} {members : α → List ι}
    {l : List α} {b : β} :
    l.foldlM (fun b a => (members a).foldlM f b) b = (l.flatMap members).foldlM f b := by
  induction l generalizing b with
  | nil => rfl
  | cons a l ih =>
    rw [List.foldlM_cons, List.flatMap_cons, List.foldlM_append]
    apply bind_congr
    intro b'
    exact ih

variable {σ V E : Type}

theorem Stage.run_idle {s : Stage σ V E} : s.run Hook.idle = s := rfl

/-- The program does nothing between windows, and does not look at their size. -/
structure VertexProgram.IgnoresWindows (program : VertexProgram σ V E) : Prop where
  beforeWindow : ∀ w, program.beforeWindow w = Hook.idle
  afterWindow : ∀ w, program.afterWindow w = Hook.idle
  update : ∀ (settings : Settings) (size : Nat) iteration state view,
    program.update ⟨iteration, { settings with intervalSize := size }⟩ state view =
      program.update ⟨iteration, settings⟩ state view

namespace VertexProgram.IgnoresWindows

variable [Inhabited V] {program : VertexProgram σ V E} {settings : Settings} {g : Adjacency}
  {s : Stage σ V E} {size : Nat}

theorem foldlM_sweep (h : program.IgnoresWindows) {ws : List Window} :
    ws.foldlM (Stage.sweep program settings g) s =
      (ws.flatMap Window.vertices).foldlM (Stage.visit program settings g) s := by
  have hsweep : Stage.sweep program settings g =
      fun s w => w.vertices.foldlM (Stage.visit program settings g) s := by
    funext s w
    unfold Stage.sweep
    rw [h.beforeWindow, h.afterWindow]
    simp only [Stage.run_idle]
    exact bind_pure _
  rw [hsweep, foldlM_foldlM_eq_flatMap]

/-- An iteration is the same over any windows that hold the same vertices in the same order. -/
theorem iterate (h : program.IgnoresWindows) {ws ws' : List Window}
    (hws : ws'.flatMap Window.vertices = ws.flatMap Window.vertices) {iteration : UInt32} :
    s.iterate program { settings with intervalSize := size } g ws' iteration =
      s.iterate program settings g ws iteration := by
  have hvisit : Stage.visit program { settings with intervalSize := size } g =
      Stage.visit program settings g := by
    funext s v
    apply Stage.visit_congr
    · rfl
    · exact h.update settings size
  rw [Stage.iterate_eq, Stage.iterate_eq, h.foldlM_sweep, h.foldlM_sweep, hvisit, hws]

theorem run_eq (h : program.IgnoresWindows) {graph : DataGraph V E} {state : σ}
    (hn : graph.adjacency.vertexCount ≤ 4294967296) :
    program.run { settings with intervalSize := size } state graph =
      program.run settings state graph := by
  apply Stage.runFrom_congr
  · rfl
  · intro s iteration
    apply h.iterate
    rw [flatMap_vertices_windows hn, flatMap_vertices_windows hn]

end VertexProgram.IgnoresWindows

theorem ShortestPath.ignoresWindows_program {source : VertexId} :
    (program source).IgnoresWindows :=
  ⟨fun _ => rfl, fun _ => rfl, fun _ _ _ _ _ => rfl⟩

theorem Coloring.ignoresWindows_program : program.IgnoresWindows :=
  ⟨fun _ => rfl, fun _ => rfl, fun _ _ _ _ _ => rfl⟩

theorem Components.ignoresWindows_program {direction : Direction} :
    (program direction).IgnoresWindows :=
  ⟨fun _ => rfl, fun _ => rfl, fun _ _ _ _ _ => rfl⟩

theorem Simulation.ignoresWindows_program {pattern : Pattern} {labels : VertexId → Label} :
    (program pattern labels).IgnoresWindows :=
  ⟨fun _ => rfl, fun _ => rfl, fun _ _ _ _ _ => rfl⟩

namespace VertexProgram

/-- **The window size cannot be seen**: two runs of a program that ignores windows, under settings
that differ in nothing but the window size, end with the same report or fault, the same program
state and the same values and slots. All programs of this library ignore windows. -/
theorem run_resized :
    (∀ {σ V E : Type} [Inhabited V] (program : VertexProgram σ V E), program.IgnoresWindows →
      ∀ (settings : Settings) (size size' : Nat) (state : σ) (graph : DataGraph V E),
        graph.adjacency.vertexCount ≤ maxWord →
        program.run { settings with intervalSize := size } state graph =
          program.run { settings with intervalSize := size' } state graph) ∧
      (∀ source, (ShortestPath.program source).IgnoresWindows) ∧
      Coloring.program.IgnoresWindows ∧
      (∀ direction, (Components.program direction).IgnoresWindows) ∧
      ∀ pattern labels, (Simulation.program pattern labels).IgnoresWindows := by
  refine ⟨?runs, fun _ => ShortestPath.ignoresWindows_program, Coloring.ignoresWindows_program,
    fun _ => Components.ignoresWindows_program, fun _ _ => Simulation.ignoresWindows_program⟩
  case runs =>
    intro σ V E _ program h settings size size' state graph hn
    have hword : graph.adjacency.vertexCount ≤ 4294967296 := Nat.le_succ_of_le hn
    exact (h.run_eq hword).trans (h.run_eq hword).symm

/-- Counts its turns and wakes its successor, and fails at vertex 3 in iteration 1. -/
def stumbling : VertexProgram Nat UInt32 UInt32 where
  update ctx turns view := {
    state := turns + 1
    view := view.setValue (view.value + ctx.iteration + 1)
    requests := #[.add (view.id + 1) true]
    verdict := if ctx.iteration = 1 ∧ view.id = 3 then .error .noSuchEdge else .ok .changed }

theorem run_resized_stumbling :
    stumbling.IgnoresWindows ∧ (Adjacency.ofEdges 5 #[]).vertexCount ≤ maxWord ∧
      (windows 5 2).length = 3 ∧ (windows 5 0).length = 1 ∧
      stumbling.run { selective := true, intervalSize := 2 } 0 (.ofAdjacency (.ofEdges 5 #[])) =
        stumbling.run { selective := true, intervalSize := 0 } 0
          (.ofAdjacency (.ofEdges 5 #[])) ∧
      ∃ stop,
        stumbling.run { selective := true, intervalSize := 2 } 0 (.ofAdjacency (.ofEdges 5 #[])) =
          .error stop ∧
        stop.state = 8 ∧ stop.graph.values = #[1, 3, 3, 3, 1] := by
  have hignores : stumbling.IgnoresWindows :=
    ⟨fun _ => rfl, fun _ => rfl, fun _ _ _ _ _ => rfl⟩
  have hn : (Adjacency.ofEdges 5 #[]).vertexCount ≤ maxWord := by decide
  refine ⟨hignores, hn, by decide, by decide, ?_, ?_⟩
  · exact run_resized.1 stumbling hignores { selective := true } 2 0 0
      (.ofAdjacency (.ofEdges 5 #[])) hn
  · exact ⟨_, by cbv, by cbv, by cbv⟩

end VertexProgram

end VertexSweep
