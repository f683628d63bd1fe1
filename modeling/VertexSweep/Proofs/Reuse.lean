import VertexSweep.Match.Simulation
import VertexSweep.Proofs.Relax.Coloring
import VertexSweep.Proofs.Sweep.Forgetting
import VertexSweep.Relax.Components
import VertexSweep.Relax.ShortestPath

/-!
# Reusing a graph

A graph keeps the values that a run leaves behind, and another program may start from them. The
programs for shortest paths, colorings, components and simulations all begin with turns that read
nothing of the graph (`VertexProgram.Resets`). Three of them write every slot in the first sweep,
each vertex the slots that are its own (`VertexProgram.Forgetful.ofOwner`). A coloring writes only
the slots of edges to higher ids, and later reads no others (`Coloring.forgetful`). So no run of
theirs depends on what the graph held before (`forgets_of_built`).
-/

namespace VertexSweep

variable {l : EdgeList} {σ V E : Type} {j : Nat} {e : VertexId × VertexId}

/-- If in iteration 0 every slot is written by the vertex that owns it, nothing is left of what the
slots held before. -/
def VertexProgram.Forgetful.ofOwner {program : VertexProgram σ V E}
    (owner : VertexId × VertexId → VertexId)
    (lt_vertexCount : ∀ e ∈ l.edges, (owner e).toNat < l.vertexCount)
    (starts : ∀ (settings : Settings) (state : σ) {v : VertexId}, v.toNat < l.vertexCount →
      ∃ links, program.Resets l.graph settings state v links ∧
        ∀ j e, l.edges[j]? = some e → owner e = v → ∃ link ∈ links, link.slot = j) :
    program.Forgetful l.graph where
  fresh k j := ∀ e, l.edges[j]? = some e → (owner e).toNat < k
  edgeCount_le {j} h := by
    refine Nat.le_of_not_lt fun hlt => ?_
    exact Nat.not_lt_zero _ (h _ (Array.getElem?_eq_getElem hlt))
  starts settings state {v} hv := by
    rw [Adjacency.vertexCount_ofEdges] at hv
    obtain ⟨links, hresets, hwrites⟩ := starts settings state hv
    refine ⟨links, hresets, fun {j} hfresh => ?_⟩
    by_cases hown : ∃ e, l.edges[j]? = some e ∧ owner e = v
    · obtain ⟨e, he, howner⟩ := hown
      exact .inr (hwrites j e he howner)
    · exact .inl fun e he => toNat_lt_of_ne (hfresh e he) fun heq => hown ⟨e, he, heq⟩
  steps {ctx state v value slots slots'} _ _ hslots := by
    have hsame : slots' = slots := by
      refine Array.ext_getElem? fun j => hslots j fun e he => ?_
      rw [Adjacency.vertexCount_ofEdges]
      exact lt_vertexCount e (Array.mem_of_getElem? he)
    rw [hsame]
    exact .refl

/-- The source of an edge has a link to its slot. -/
theorem exists_mem_outOf (hl : l.Built) (he : l.edges[j]? = some e) :
    ∃ link ∈ l.graph.outOf e.1, link.slot = j :=
  ⟨⟨j, e.2⟩, Adjacency.mem_outOf_ofEdges.2
    ⟨(hl.lt_vertexCount (Array.mem_of_getElem? he)).1, he⟩, rfl⟩

/-- The target of an edge has a link to its slot. -/
theorem exists_mem_inOf (hl : l.Built) (he : l.edges[j]? = some e) :
    ∃ link ∈ l.graph.inOf e.2, link.slot = j :=
  ⟨⟨j, e.1⟩, Adjacency.mem_inOf_ofEdges.2
    ⟨(hl.lt_vertexCount (Array.mem_of_getElem? he)).2, he⟩, rfl⟩

/-! ## Programs that write all slots -/

theorem ShortestPath.resets (source : VertexId) (settings : Settings) (v : VertexId) :
    (program source).Resets l.graph settings () v (l.graph.outOf v) := by
  by_cases hsource : v = source
  · subst hsource
    refine ⟨(), 1, unreached, #[.add v false], .quiet, by simp, fun value slots => ?_⟩
    simp [program, start, View.writeAll_eq, View.setValue, View.outLinks]
  · refine ⟨(), unreached, unreached, #[], .quiet, by simp, fun value slots => ?_⟩
    simp [program, start, View.writeAll_eq, View.setValue, View.outLinks, hsource]

def ShortestPath.forgetful (hl : l.Built) (source : VertexId) :
    (program source).Forgetful l.graph :=
  .ofOwner Prod.fst (fun _ he => (hl.lt_vertexCount he).1) fun settings _ v _ =>
    ⟨l.graph.outOf v, resets source settings v, fun _ _ he hv => hv ▸ exists_mem_outOf hl he⟩

theorem Components.resets (direction : Direction) (settings : Settings) (v : VertexId) :
    (program direction).Resets l.graph settings () v (l.graph.outOf v) :=
  ⟨(), v, v, #[.add v false], .quiet, by simp, fun _ _ => rfl⟩

def Components.forgetful (hl : l.Built) (direction : Direction) :
    (program direction).Forgetful l.graph :=
  .ofOwner Prod.fst (fun _ he => (hl.lt_vertexCount he).1) fun settings _ v _ =>
    ⟨l.graph.outOf v, resets direction settings v, fun _ _ he hv => hv ▸ exists_mem_outOf hl he⟩

theorem Simulation.resets (pattern : Pattern) (labels : VertexId → Label) (settings : Settings)
    (m : Matching) (v : VertexId) :
    (program pattern labels).Resets l.graph settings m v (l.graph.inOf v) :=
  ⟨m, labels v, labels v, #[.add v false], .changed, by simp, fun _ _ => rfl⟩

def Simulation.forgetful (hl : l.Built) (pattern : Pattern) (labels : VertexId → Label) :
    (program pattern labels).Forgetful l.graph :=
  .ofOwner Prod.snd (fun _ he => (hl.lt_vertexCount he).2) fun settings m v _ =>
    ⟨l.graph.inOf v, resets pattern labels settings m v,
      fun _ _ he hv => hv ▸ exists_mem_inOf hl he⟩

/-! ## Colorings -/

namespace Coloring

/-- Slots that are fresh hold colors of higher ids, and those are all that a vertex reads. -/
theorem used_congr (hl : l.Built) {v : VertexId} {value : UInt32} {slots slots' : Array UInt32}
    (hslots : ∀ j : Nat, (∀ e, l.edges[j]? = some e → e.1 < e.2 ∧ e.2.toNat < l.vertexCount) →
      slots'[j]? = slots[j]?) :
    (View.mk v value l.graph slots').outEdges.filter (v < ·.far) =
      (View.mk v value l.graph slots).outEdges.filter (v < ·.far) := by
  simp only [View.outEdges, List.filter_map]
  refine List.map_congr_left fun link hlink => ?_
  obtain ⟨hmem, hhigher⟩ := List.mem_filter.1 hlink
  have hedge := (Adjacency.mem_outOf_ofEdges.1 (Array.mem_toList_iff.1 hmem)).2
  have hslot : slots'[link.slot]? = slots[link.slot]? := by
    refine hslots link.slot fun e he => ?_
    obtain rfl : (v, link.far) = e := Option.some.inj (hedge.symm.trans he)
    exact ⟨of_decide_eq_true hhigher, (hl.lt_vertexCount (Array.mem_of_getElem? hedge)).2⟩
  simp only [View.edgeOf, View.read, Array.getD_eq_getD_getElem?, hslot]

/-- A turn that colors a vertex leaves the same behind if it reads the same. -/
theorem recolor_alike {fresh : Nat → Prop} {v : VertexId} {value : UInt32}
    {slots slots' : Array UInt32}
    (hused : (View.mk v value l.graph slots').outEdges.filter (v < ·.far) =
      (View.mk v value l.graph slots).outEdges.filter (v < ·.far))
    (hslots : ∀ j, fresh j → slots'[j]? = slots[j]?) :
    (recolor ⟨v, value, l.graph, slots⟩).Alike fresh (recolor ⟨v, value, l.graph, slots'⟩) := by
  have hlinks : lowerLinks ⟨v, value, l.graph, slots'⟩ =
    lowerLinks ⟨v, value, l.graph, slots⟩ := rfl
  unfold recolor
  simp only [hused, hlinks]
  split
  · exact ⟨rfl, rfl, rfl, rfl, hslots⟩
  · refine ⟨rfl, rfl, rfl, by simp only [View.writeAll_eq]; rfl, fun j hj => ?_⟩
    dsimp only
    exact View.getElem?_writeAll_congr (hslots j hj)

def forgetful (hl : l.Built) : program.Forgetful l.graph where
  fresh k j := ∀ e, l.edges[j]? = some e → e.1 < e.2 ∧ e.2.toNat < k
  edgeCount_le {j} h := by
    refine Nat.le_of_not_lt fun hlt => ?_
    exact Nat.not_lt_zero _ (h _ (Array.getElem?_eq_getElem hlt)).2
  starts settings state {v} hv := by
    rw [Adjacency.vertexCount_ofEdges] at hv
    refine ⟨(l.graph.inOf v).filter (·.far < v),
      ⟨(), 0, 0, #[.add v false], .quiet, by simp, fun _ _ => rfl⟩, fun {j} hfresh => ?_⟩
    by_cases hown : ∃ e, l.edges[j]? = some e ∧ e.2 = v
    · obtain ⟨e, he, rfl⟩ := hown
      have hlink : (⟨j, e.1⟩ : Link) ∈ l.graph.inOf e.2 := Adjacency.mem_inOf_ofEdges.2 ⟨hv, he⟩
      exact .inr ⟨_, Array.mem_filter.2 ⟨hlink, decide_eq_true (hfresh e he).1⟩, rfl⟩
    · refine .inl fun e he => ⟨(hfresh e he).1, toNat_lt_of_ne (hfresh e he).2 fun heq => ?_⟩
      exact hown ⟨e, he, heq⟩
  steps {ctx state v value slots slots'} hiteration _ hslots := by
    rw [Adjacency.vertexCount_ofEdges] at hslots ⊢
    simp only [program, if_neg hiteration]
    exact recolor_alike (used_congr hl hslots) hslots

end Coloring

/-! ## All of them -/

/-- **No run depends on what the graph held before**, whichever of the programs it is. -/
theorem forgets_of_built (hl : l.Built) (hn : l.vertexCount ≤ maxWord) {settings : Settings}
    (hmax : 1 ≤ settings.maxIterations) :
    (∀ source, (ShortestPath.program source).Forgets settings l.graph) ∧
      Coloring.program.Forgets settings l.graph ∧
      (∀ direction, (Components.program direction).Forgets settings l.graph) ∧
      ∀ pattern labels, (Simulation.program pattern labels).Forgets settings l.graph := by
  have hgraph : l.graph.vertexCount ≤ maxWord := by rwa [Adjacency.vertexCount_ofEdges]
  exact ⟨fun source => (ShortestPath.forgetful hl source).forgets hgraph hmax,
    (Coloring.forgetful hl).forgets hgraph hmax,
    fun direction => (Components.forgetful hl direction).forgets hgraph hmax,
    fun pattern labels => (Simulation.forgetful hl pattern labels).forgets hgraph hmax⟩

/-- The edge from 3 to 0 keeps what it held, but nothing else does. -/
theorem forgets_of_built_chordedCycle : ∃ run run',
    Coloring.program.run {} () ⟨Coloring.chordedCycle.graph, #[0, 0, 0, 0],
        #[0, 0, 0, 0, 0, 0, 0]⟩ = .ok run ∧
      Coloring.program.run {} () ⟨Coloring.chordedCycle.graph, #[4, 3, 2, 1],
        #[1, 2, 3, 4, 5, 6, 7]⟩ = .ok run' ∧
      run'.report = run.report ∧ run'.graph.values = run.graph.values ∧
      run.graph.slots[3]? = some 0 ∧ run'.graph.slots[3]? = some 4 := by
  obtain ⟨-, hcoloring, -⟩ := @forgets_of_built Coloring.chordedCycle (.ofList _) (by decide) {}
    (by decide)
  obtain ⟨run, hrun, hslot⟩ := Yields.exists_ok_of_any
    (x := Coloring.program.run {} () ⟨Coloring.chordedCycle.graph, #[0, 0, 0, 0],
      #[0, 0, 0, 0, 0, 0, 0]⟩) (f := fun run => run.graph.slots[3]? == some 0) (by cbv)
  obtain ⟨run', hrun', hslot'⟩ := Yields.exists_ok_of_any
    (x := Coloring.program.run {} () ⟨Coloring.chordedCycle.graph, #[4, 3, 2, 1],
      #[1, 2, 3, 4, 5, 6, 7]⟩) (f := fun run => run.graph.slots[3]? == some 4) (by cbv)
  have haccount : account (.ok run) = account (.ok run') := by
    rw [← hrun, ← hrun']
    exact hcoloring () (by decide) (by decide) (by decide) (by decide)
  obtain ⟨hreport, hrest⟩ := Prod.mk.inj (Except.ok.inj haccount)
  exact ⟨run, run', hrun, hrun', hreport.symm, (Prod.mk.inj hrest).2.symm, beq_iff_eq.1 hslot,
    beq_iff_eq.1 hslot'⟩

end VertexSweep
