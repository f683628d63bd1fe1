import VertexSweep.Match.Simulation
import VertexSweep.Proofs.Relax.Coloring
import VertexSweep.Proofs.Relax.Components
import VertexSweep.Proofs.Relax.Distances
import VertexSweep.Proofs.Sweep.Twins

/-!
# The order and the number of edges do not matter

A list may repeat an edge, and may list its edges in any order. Neither shows in what a run finds,
whether or not it was stopped: every turn of the four programs takes minima of what it reads, the
least color that it does not read, or asks whether some edge leads to a candidate, and asks for the
far ends of its edges. So the updates of twins are twins (`View.Twins.lower` is where the slots
that are lowered are matched with the vertices that are asked for), and the results are the same
(`solve_eq_of_sameEdges`).
-/

namespace VertexSweep

variable {l l' : EdgeList} {content : VertexId × VertexId → UInt32}
  {view view' : View UInt32 UInt32} {links links' : Array Link}
  {far : VertexId × VertexId → VertexId → Prop} {offer : UInt32}

/-! ## Lowering slots -/

namespace View

variable {b b' : View UInt32 UInt32 × Array Request}

theorem Lowers.carries [∀ e, Decidable (∃ u, far e u)] (h : Lowers offer links.toList (view, #[]) b)
    (hcarries : l.Carries view.slots content) (hlinks : l.Lists links far) :
    l.Carries b.1.slots fun e =>
      if (∃ u, far e u) ∧ offer < content e then offer else content e := by
  intro j e he
  have hj : j < b.1.slots.size := h.size.symm ▸ hcarries.lt_size he
  have hbefore : view.slots.getD j default = content e := hcarries.getD he
  have hafter : b.1.slots[j]? = some (b.1.slots.getD j default) := by
    simp [hj]
  rw [hafter]
  show some _ = some (if (∃ u, far e u) ∧ offer < content e then offer else content e)
  rcases h.slot j with hsame | ⟨hoffer, hlt, link, hlink, hslot, -⟩
  -- The slot was left alone: if a link leads to it, it held no more than the offer.
  · rw [hsame, hbefore, if_neg]
    intro ⟨hfar, hlt⟩
    obtain ⟨link, hlink, hslot⟩ := (hlinks.exists_slot_iff he).2 hfar
    have hle : b.1.slots.getD link.slot default ≤ offer :=
      h.le_offer link (Array.mem_toList_iff.2 hlink)
    rw [hslot, hsame, hbefore] at hle
    exact UInt32.not_lt.2 hle hlt
  · rw [hoffer, if_pos]
    refine ⟨(hlinks.exists_slot_iff he).1 ⟨link, Array.mem_toList_iff.1 hlink, hslot⟩, ?_⟩
    rwa [hbefore] at hlt

/-- If a slot has no more than one far end, the far ends of the slots that held more are asked
for. -/
theorem Lowers.mem_requests_iff (h : Lowers offer links.toList (view, #[]) b)
    (hlinks : l.Lists links far) (hfar : ∀ e u w, far e u → far e w → u = w) {r : Request} :
    r ∈ b.2 ↔ ∃ link ∈ links, r = .add link.far true ∧ offer < view.read link := by
  constructor
  · intro hr
    rcases h.asked r hr with hnone | ⟨link, hlink, hrest⟩
    · simp at hnone
    · exact ⟨link, Array.mem_toList_iff.1 hlink, hrest⟩
  · intro ⟨link, hlink, heq, hlt⟩
    rcases h.slot link.slot with hsame | ⟨-, -, other, hother, hslot, hmem⟩
    · have hle : b.1.slots.getD link.slot default ≤ offer :=
        h.le_offer link (Array.mem_toList_iff.2 hlink)
      rw [hsame] at hle
      exact absurd hlt (UInt32.not_lt.2 hle)
    -- The slot was lowered for some link that leads to it, and that one has the same far end.
    · obtain ⟨e, he, hend⟩ := (hlinks link).1 hlink
      obtain ⟨e', he', hend'⟩ := (hlinks other).1 (Array.mem_toList_iff.1 hother)
      rw [hslot, he] at he'
      cases he'
      rw [heq, hfar e link.far other.far hend hend']
      exact hmem

theorem Twins.lower (h : view.Twins l l' content view') (hsame : l.SameEdges l')
    (hlinks : l.Lists links far) (hlinks' : l'.Lists links' far)
    (hfar : ∀ e u w, far e u → far e w → u = w) (offer : UInt32) :
    (∃ content, (view.lower links offer).1.Twins l l' content (view'.lower links' offer).1) ∧
      (∀ r, r ∈ (view'.lower links' offer).2 ↔ r ∈ (view.lower links offer).2) ∧
      ∀ first last, .remove first last ∉ (view.lower links offer).2 := by
  classical
  have hlowers : Lowers offer links.toList (view, #[]) (view.lower links offer) := lower_lowers
  have hlowers' : Lowers offer links'.toList (view', #[]) (view'.lower links' offer) :=
    lower_lowers
  refine ⟨⟨_, ?_, ?_, ?_, ?_, ?_, hlowers.carries h.carries hlinks,
    hlowers'.carries h.carries' hlinks'⟩, ?_, ?_⟩
  · rw [hlowers.same, hlowers'.same]
    exact h.id
  · rw [hlowers.value, hlowers'.value]
    exact h.value
  · rw [hlowers.same]
    exact h.adjacency
  · rw [hlowers'.same]
    exact h.adjacency'
  · rw [hlowers.same]
    exact h.id_lt
  · intro r
    rw [hlowers.mem_requests_iff hlinks hfar, hlowers'.mem_requests_iff hlinks' hfar]
    exact h.exists_edge_iff hsame hlinks hlinks'
      (P := fun edge => r = .add edge.far true ∧ offer < edge.value)
  · intro first last hmem
    obtain ⟨_, -, heq, -⟩ := (hlowers.mem_requests_iff hlinks hfar).1 hmem
    cases heq

end View

/-! ## Propagation -/

theorem isEmpty_congr {α : Type} {xs ys : Array α} (h : ∀ x, x ∈ ys ↔ x ∈ xs) :
    ys.isEmpty = xs.isEmpty := by
  rw [Bool.eq_iff_iff, Array.isEmpty_iff, Array.isEmpty_iff, Array.eq_empty_iff_forall_not_mem,
    Array.eq_empty_iff_forall_not_mem]
  simp only [h]

theorem leastOf_congr {start : UInt32} {xs ys : List UInt32} (h : ∀ x, x ∈ ys ↔ x ∈ xs) :
    leastOf start ys = leastOf start xs := by
  have hle : ∀ {xs ys : List UInt32}, (∀ x ∈ xs, x ∈ ys) → leastOf start ys ≤ leastOf start xs := by
    intro xs ys hsub
    have hleast : leastOf start xs = start ∨ leastOf start xs ∈ xs := leastOf_eq_or_mem
    rcases hleast with heq | hmem
    · rw [heq]
      exact leastOf_le_start
    · exact leastOf_le_of_mem (hsub _ hmem)
  exact UInt32.le_antisymm (hle fun x => (h x).2) (hle fun x => (h x).1)

namespace Components

variable {direction : Direction} {offer : UInt32 → UInt32}

theorem lists_sources (direction : Direction) (h : view.Twins l l' content view')
    (hsame : l.SameEdges l') :
    ∃ far, l.Lists (sources direction view) far ∧ l'.Lists (sources direction view') far := by
  cases direction with
  | undirected => exact ⟨_, h.links hsame⟩
  | directed => exact ⟨_, h.inLinks hsame⟩

/-- A slot has one far end even if a vertex writes both ways, on a loop. -/
theorem lists_targets (direction : Direction) (h : view.Twins l l' content view')
    (hsame : l.SameEdges l') :
    ∃ far, l.Lists (targets direction view) far ∧ l'.Lists (targets direction view') far ∧
      ∀ e u w, far e u → far e w → u = w := by
  cases direction with
  | undirected =>
    obtain ⟨hlinks, hlinks'⟩ := h.links hsame
    refine ⟨_, hlinks, hlinks', ?_⟩
    rintro e u w (rfl | rfl) (heq | heq) <;> cases heq <;> rfl
  | directed =>
    obtain ⟨hlinks, hlinks'⟩ := h.outLinks hsame
    refine ⟨_, hlinks, hlinks', ?_⟩
    rintro e u w rfl heq
    cases heq
    rfl

theorem leastAround_congr (direction : Direction) (h : view.Twins l l' content view')
    (hsame : l.SameEdges l') :
    leastAround direction view' = leastAround direction view := by
  obtain ⟨far, hlinks, hlinks'⟩ := lists_sources direction h hsame
  unfold leastAround
  rw [h.value]
  apply leastOf_congr
  intro x
  simp only [List.mem_map, Array.mem_toList_iff]
  exact h.exists_edge_iff hsame hlinks hlinks' (P := fun edge => edge.value = x)

theorem propagate_twins (h : view.Twins l l' content view') (hsame : l.SameEdges l') :
    (propagate direction offer view).Twins l l' (propagate direction offer view') := by
  have hleast := leastAround_congr direction h hsame
  obtain ⟨far, hlinks, hlinks', hfar⟩ := lists_targets direction h hsame
  have hlowered := (h.setValue (leastAround direction view)).lower hsame hlinks hlinks' hfar
    (offer (leastAround direction view))
  obtain ⟨hview, hrequests, hkeeps⟩ := hlowered
  rw [Propagation.propagate_eq, Propagation.propagate_eq]
  unfold Propagation.lowered
  rw [hleast, h.value]
  refine ⟨rfl, ?_, hview, hrequests, hkeeps⟩
  rw [isEmpty_congr hrequests]

theorem seesEdges_program (hsame : l.SameEdges l') : (program direction).SeesEdges l l' := by
  intro ctx state content view view' h
  rw [program_eq]
  unfold Relaxation.ofTurns
  simp only
  split
  · obtain ⟨hlinks, hlinks'⟩ := h.outLinks hsame
    unfold start
    rw [h.id]
    refine ⟨rfl, rfl, (h.setValue view.id).writeAll hlinks hlinks' view.id, ?_, ?_⟩
    · simp
    · simp
  · exact propagate_twins h hsame

end Components

theorem ShortestPath.seesEdges_program (hsame : l.SameEdges l') (source : VertexId) :
    (program source).SeesEdges l l' := by
  intro ctx state content view view' h
  rw [program_eq]
  unfold Relaxation.ofTurns
  simp only
  split
  · obtain ⟨hlinks, hlinks'⟩ := h.outLinks hsame
    obtain ⟨_, hview⟩ := h.writeAll hlinks hlinks' unreached
    unfold start
    simp only [hview.id]
    split
    · refine ⟨rfl, rfl, ⟨_, hview.setValue 1⟩, ?_, ?_⟩
      · simp
      · simp
    · refine ⟨rfl, rfl, ⟨_, hview.setValue unreached⟩, ?_, ?_⟩
      · simp
      · simp
  · exact Components.propagate_twins h hsame

/-! ## Colorings -/

namespace Coloring

theorem firstFree_congr {used used' : List UInt32} (hmem : ∀ c, c ∈ used' ↔ c ∈ used)
    (hfree : ∃ c, c ∉ used) : firstFree used' = firstFree used := by
  have hfree' : ∃ c, c ∉ used' := by
    simpa only [hmem] using hfree
  obtain ⟨hmem', hle'⟩ := isLeast_firstFree hfree'
  obtain ⟨hmem₀, hle⟩ := isLeast_firstFree hfree
  apply UInt32.le_antisymm
  · exact hle' fun h => hmem₀ ((hmem _).1 h)
  · exact hle fun h => hmem' ((hmem _).2 h)

theorem lists_lowerLinks (h : view.Twins l l' content view') (hsame : l.SameEdges l') :
    l.Lists (lowerLinks view) (fun e u => e = (u, view.id) ∧ decide (u < view.id) = true) ∧
      l'.Lists (lowerLinks view') (fun e u => e = (u, view.id) ∧ decide (u < view.id) = true) := by
  obtain ⟨hlinks, hlinks'⟩ := h.inLinks hsame
  unfold lowerLinks
  rw [h.id]
  exact ⟨hlinks.filter fun u => decide (u < view.id), hlinks'.filter fun u => decide (u < view.id)⟩

theorem mem_used_iff {id : VertexId} {c : UInt32} :
    c ∈ (view.outEdges.filter (id < ·.far)).map (·.value) ↔
      ∃ link ∈ view.outLinks, id < (view.edgeOf link).far ∧ (view.edgeOf link).value = c := by
  simp only [View.outEdges, List.mem_map, List.mem_filter, Array.mem_toList_iff, decide_eq_true_eq]
  constructor
  · rintro ⟨_, ⟨⟨link, hlink, rfl⟩, hlt⟩, hvalue⟩
    exact ⟨link, hlink, hlt, hvalue⟩
  · rintro ⟨link, hlink, hlt, hvalue⟩
    exact ⟨_, ⟨⟨link, hlink, rfl⟩, hlt⟩, hvalue⟩

theorem color_congr (hl : l.Built) (hn : l.vertexCount ≤ maxWord)
    (h : view.Twins l l' content view') (hsame : l.SameEdges l') :
    firstFree ((view'.outEdges.filter (view.id < ·.far)).map (·.value)) =
      firstFree ((view.outEdges.filter (view.id < ·.far)).map (·.value)) := by
  obtain ⟨hlinks, hlinks'⟩ := h.outLinks hsame
  apply firstFree_congr
  · intro c
    rw [mem_used_iff, mem_used_iff]
    exact h.exists_edge_iff hsame hlinks hlinks'
      (P := fun edge => view.id < edge.far ∧ edge.value = c)
  · obtain ⟨c, hc⟩ := exists_unused hn fun w => content (view.id, w)
    refine ⟨c, fun hmem => ?_⟩
    obtain ⟨link, hlink, -, hvalue⟩ := mem_used_iff.1 hmem
    obtain ⟨_, he, rfl⟩ := (hlinks link).1 hlink
    apply hc link.far (hl.lt_vertexCount (Array.mem_of_getElem? he)).2
    rw [← hvalue, View.edgeOf, View.read, h.carries.getD he]

theorem publish_twins (h : view.Twins l l' content view') (hsame : l.SameEdges l') (c : UInt32) :
    ∃ content, (publish view c).Twins l l' content (publish view' c) := by
  obtain ⟨hlinks, hlinks'⟩ := lists_lowerLinks h hsame
  exact (h.setValue c).writeAll hlinks hlinks' c

theorem seesEdges_program (hl : l.Built) (hn : l.vertexCount ≤ maxWord) (hsame : l.SameEdges l') :
    program.SeesEdges l l' := by
  intro ctx state content view view' h
  unfold program
  simp only
  split
  · refine ⟨rfl, rfl, publish_twins h hsame 0, ?_, ?_⟩
    · simp [start, h.id]
    · simp [start]
  · unfold recolor
    simp only [h.id, h.value, color_congr hl hn h hsame]
    split
    · exact ⟨rfl, rfl, ⟨_, h⟩, by simp, by simp⟩
    · obtain ⟨hlinks, hlinks'⟩ := lists_lowerLinks h hsame
      refine ⟨rfl, rfl, publish_twins h hsame _, ?_, ?_⟩
      · intro r
        simp only [Array.mem_map]
        exact h.exists_edge_iff hsame hlinks hlinks' (P := fun edge => .add edge.far false = r)
      · simp

end Coloring

/-! ## Simulations -/

namespace Simulation

variable {content : VertexId × VertexId → Label} {view view' : View Label Label}
  {pattern : Pattern}

theorem covers_congr (h : view.Twins l l' content view') (hsame : l.SameEdges l')
    {table : Candidates} {p : PatternId} :
    covers pattern table view' p = covers pattern table view p := by
  obtain ⟨hlinks, hlinks'⟩ := h.outLinks hsame
  unfold covers
  congr 1
  funext q
  cases pattern.labelOf? q with
  | none => rfl
  | some wanted =>
    simp only [View.outEdges]
    rw [Bool.eq_iff_iff]
    simp only [List.any_eq_true, List.mem_map, Array.mem_toList_iff, exists_exists_and_eq_and]
    exact h.exists_edge_iff hsame hlinks hlinks'
      (P := fun edge => (edge.value == wanted && table.contains edge.far q) = true)

theorem refineEach_congr (h : view.Twins l l' content view') (hsame : l.SameEdges l')
    {ps : List PatternId} {activity : Activity} {m : Matching} :
    refineEach pattern view' ps activity m = refineEach pattern view ps activity m := by
  induction ps generalizing activity m with
  | nil => rfl
  | cons p ps ih =>
    unfold refineEach
    simp only [covers_congr h hsame, h.id, ih]

theorem refine_twins (h : view.Twins l l' content view') (hsame : l.SameEdges l') {m : Matching} :
    (refine pattern m view).Twins l l' (refine pattern m view') := by
  obtain ⟨hlinks, hlinks'⟩ := h.links hsame
  unfold refine
  simp only [h.id, refineEach_congr h hsame]
  split
  · refine ⟨rfl, rfl, ⟨_, h⟩, ?_, ?_⟩
    · intro r
      simp only
      split
      · simp only [Array.mem_map]
        exact h.exists_edge_iff hsame hlinks hlinks' (P := fun edge => .add edge.far true = r)
      · rfl
    · intro first last
      simp only
      split <;> simp
  · exact ⟨rfl, rfl, ⟨_, h⟩, by simp, by simp⟩

theorem seesEdges_program (pattern : Pattern) (hsame : l.SameEdges l')
    (labels : VertexId → Label) :
    (program pattern labels).SeesEdges l l' := by
  intro ctx m content view view' h
  unfold program
  simp only
  split
  · obtain ⟨hlinks, hlinks'⟩ := h.inLinks hsame
    unfold assign
    rw [h.id]
    refine ⟨rfl, rfl, (h.setValue _).writeAll hlinks hlinks' _, ?_, ?_⟩
    · simp
    · simp
  split
  · exact refine_twins h hsame
  · unfold seed
    simp only [h.id, h.value]
    split
    · exact ⟨rfl, rfl, ⟨_, h⟩, by simp, by simp⟩
    · exact ⟨rfl, rfl, ⟨_, h⟩, by simp, by simp⟩

end Simulation

/-! ## Results -/

variable {settings : Settings} {g g' : Adjacency}

theorem Relaxation.solve_eq_account {program : Relaxation} (hg : Adjacency.ofEdgeList l = .ok g) :
    program.solve l settings =
      ((account (program.run settings () (.ofAdjacency l.graph))).mapError (·.1)).map fun out =>
        ⟨out.1, out.2.2⟩ := by
  cases Adjacency.eq_ofEdges_of_ofEdgeList hg
  simp only [solve, VertexProgram.runOn, VertexProgram.runToEnd, DataGraph.ofEdgeList, hg,
    Except.map, bind, Except.bind]
  cases program.run settings () (.ofAdjacency l.graph) <;> rfl

theorem Relaxation.solve_congr {program : Relaxation} (hsees : program.SeesEdges l l')
    (hsame : l.SameEdges l') (hn : l.vertexCount ≤ maxWord) (hg : Adjacency.ofEdgeList l = .ok g)
    (hg' : Adjacency.ofEdgeList l' = .ok g') :
    program.solve l settings = program.solve l' settings := by
  rw [solve_eq_account hg, solve_eq_account hg', hsees.account_eq hsame (Nat.le_succ_of_le hn)]

theorem Simulation.solve_eq_account {pattern : Pattern} {labels : VertexId → Label}
    (hg : Adjacency.ofEdgeList l = .ok g) :
    solve l pattern labels settings =
      ((account ((program pattern labels).run settings
          { table := .ofCapacity l.vertexCount pattern.vertexCount }
          (.ofAdjacency l.graph))).mapError (·.1)).map fun out =>
        ⟨out.1, out.2.1.table, out.2.2, out.2.1.history, out.2.1.pruned⟩ := by
  cases Adjacency.eq_ofEdges_of_ofEdgeList hg
  have hcount : (DataGraph.ofAdjacency l.graph : DataGraph Label Label).adjacency.vertexCount =
    l.vertexCount := Adjacency.vertexCount_ofEdges
  simp only [solve, VertexProgram.runToEnd, DataGraph.ofEdgeList, hg, Except.map, bind,
    Except.bind, hcount]
  cases (program pattern labels).run settings
    { table := .ofCapacity l.vertexCount pattern.vertexCount } (.ofAdjacency l.graph) <;> rfl

/-- **Only the set of edges matters**: on two accepted lists with the same edges, in any order and
any number, each program comes to the same result under the same settings, with the same report of
every round. -/
theorem solve_eq_of_sameEdges (hl : l.Built) (hn : l.vertexCount ≤ maxWord)
    (hg : Adjacency.ofEdgeList l = .ok g) (hg' : Adjacency.ofEdgeList l' = .ok g')
    (hsame : l.SameEdges l') (settings : Settings) :
    (∀ source, ShortestPath.solve l source settings = ShortestPath.solve l' source settings) ∧
      Coloring.solve l settings = Coloring.solve l' settings ∧
      (∀ direction, Components.solve l direction settings =
        Components.solve l' direction settings) ∧
      ∀ pattern labels, Simulation.solve l pattern labels settings =
        Simulation.solve l' pattern labels settings := by
  refine ⟨fun source => ?_, ?_, fun direction => ?_, fun pattern labels => ?_⟩
  · unfold ShortestPath.solve
    rw [hsame.vertexCount]
    split
    · rfl
    · exact Relaxation.solve_congr (ShortestPath.seesEdges_program hsame source) hsame hn hg hg'
  · exact Relaxation.solve_congr (Coloring.seesEdges_program hl hn hsame) hsame hn hg hg'
  · exact Relaxation.solve_congr (Components.seesEdges_program hsame) hsame hn hg hg'
  · have hsees := Simulation.seesEdges_program pattern hsame labels
    rw [Simulation.solve_eq_account hg, Simulation.solve_eq_account hg', hsame.vertexCount,
      hsees.account_eq hsame (Nat.le_succ_of_le hn)]

/-- A cycle with a chord and a loop. -/
def sparse : EdgeList := .ofList [(0, 1), (1, 2), (2, 3), (3, 0), (2, 0), (3, 3)]

/-- The same edges in another order, the chord three times and the loop twice. -/
def lavish : EdgeList :=
  .ofList [(2, 0), (3, 3), (2, 3), (2, 0), (1, 2), (3, 0), (3, 3), (0, 1), (2, 0)]

theorem sameEdges_lavish : sparse.SameEdges lavish where
  vertexCount := by decide
  mem_iff e := by
    have hsub : lavish.edges.all (sparse.edges.contains ·) = true := by decide +kernel
    have hsuper : sparse.edges.all (lavish.edges.contains ·) = true := by decide +kernel
    simp only [Array.all_eq_true_iff_forall_mem, Array.contains_iff_mem] at hsub hsuper
    exact ⟨hsub e, hsuper e⟩

theorem solve_eq_of_sameEdges_lavish : ∃ colored linked found : _,
    Coloring.solve sparse { selective := true, maxIterations := 3 } = .ok colored ∧
      Coloring.solve lavish { selective := true, maxIterations := 3 } = .ok colored ∧
      colored.report.outcome = .iterationLimit ∧ colored.values = #[0, 0, 1, 0] ∧
      Components.solve sparse .undirected {} = .ok linked ∧
      Components.solve lavish .undirected {} = .ok linked ∧ linked.values = #[0, 0, 0, 0] ∧
      Simulation.solve sparse ⟨#[0, 1, 1], #[1], #[0, 1]⟩ (· / 2) {} = .ok found ∧
      Simulation.solve lavish ⟨#[0, 1, 1], #[1], #[0, 1]⟩ (· / 2) {} = .ok found ∧
      found.pruned = 1 := by
  have hsparse : ∃ g, Adjacency.ofEdgeList sparse = .ok g := ⟨_, rfl⟩
  have hlavish : ∃ g, Adjacency.ofEdgeList lavish = .ok g := ⟨_, rfl⟩
  obtain ⟨g, hg⟩ := hsparse
  obtain ⟨g', hg'⟩ := hlavish
  have heq := solve_eq_of_sameEdges (.ofList _) (by decide) hg hg' sameEdges_lavish
  obtain ⟨colored, hcolored, hcolors⟩ := Yields.exists_ok_of_any
    (x := Coloring.solve sparse { selective := true, maxIterations := 3 })
    (f := fun found => found.report.outcome == .iterationLimit && found.values == #[0, 0, 1, 0])
    (by cbv)
  obtain ⟨linked, hlinked, hlabels⟩ := Yields.exists_ok_of_any
    (x := Components.solve sparse .undirected {}) (f := (·.values == #[0, 0, 0, 0]))
    (by decide +kernel)
  obtain ⟨found, hfound, hpruned⟩ := Yields.exists_ok_of_any
    (x := Simulation.solve sparse ⟨#[0, 1, 1], #[1], #[0, 1]⟩ (· / 2) {}) (f := (·.pruned == 1))
    (by decide +kernel)
  rw [Bool.and_eq_true, beq_iff_eq, beq_iff_eq] at hcolors
  rw [beq_iff_eq] at hlabels hpruned
  refine ⟨colored, linked, found, hcolored, ?_, hcolors.1, hcolors.2, hlinked, ?_, hlabels, hfound,
    ?_, hpruned⟩
  · rw [← (heq _).2.1]
    exact hcolored
  · rw [← (heq _).2.2.1]
    exact hlinked
  · rw [← (heq _).2.2.2]
    exact hfound

end VertexSweep
