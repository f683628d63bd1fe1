import VertexSweep.Match.Simulation
import VertexSweep.Proofs.Bounds.Checked
import VertexSweep.Proofs.Bounds.Tables

/-!
# Simulations with every access tested

The turns of a simulation on the compact form of the graph and on tables whose accesses are tested.
Refinement goes through the candidates that a vertex had when its turn began, while the set that
they were taken from shrinks and may be given back; the table stays well formed under it
(`refineEach?_eq`), and that is all that the look-ups need. So the checked simulation follows the
simulation from every well-formed table (`follows`), whether or not its dimensions are those of the
graph and the pattern.
-/

namespace VertexSweep.Simulation

/-- Whether a vertex can cover its candidate `p`. -/
def covers? (pattern : Pattern) (t : Topology) (table : Candidates) (view : View Label Label)
    (p : PatternId) : Option Bool := do
  (← pattern.neighborsOf? p).allM fun q =>
    match pattern.labelOf? q with
    | none => some false
    | some wanted => do
      (← t.outLinks? view.id).anyM fun link => do
        let edge ← view.edgeOf? link
        if edge.value == wanted then table.contains? edge.far q else return false

/-- Adds each of the given candidates to `u`, up to the first failure. -/
def seedEach? (u : VertexId) : List PatternId → Activity → Matching →
    Option (Except Fault Activity × Matching)
  | [], activity, m => some (.ok activity, m)
  | p :: ps, activity, m => do
    match ← m.table.add? u p with
    | (.error fault, table) => return (.error fault, { m with table })
    | (.ok true, table) => seedEach? u ps .changed { m with table, seeded := m.seeded + 1 }
    | (.ok false, table) => seedEach? u ps activity { m with table }

/-- Drops those of the given candidates that are not covered, up to the first failure. -/
def refineEach? (pattern : Pattern) (t : Topology) (view : View Label Label) :
    List PatternId → Activity → Matching → Option (Except Fault Activity × Matching)
  | [], activity, m => some (.ok activity, m)
  | p :: ps, activity, m => do
    if ← covers? pattern t m.table view p then
      refineEach? pattern t view ps activity m
    else
      match ← m.table.prune? view.id p with
      | (.error fault, table) => return (.error fault, { m with table })
      | (.ok _, table) =>
        refineEach? pattern t view ps .changed { m with table, pruned := m.pruned + 1 }

def checkedAssign (t : Topology) (label : Label) (m : Matching) (view : View Label Label) :
    Option (Update Matching Label Label) := do
  let view := view.setValue label
  return {
    state := m
    view := ← view.writeAll? (← t.inLinks? view.id) label
    requests := #[.add view.id false]
    verdict := .ok .changed }

def checkedSeed (pattern : Pattern) (m : Matching) (view : View Label Label) :
    Option (Update Matching Label Label) := do
  let requests := #[.add view.id false]
  if m.table.isLive view.id then
    return { state := m, view, requests, verdict := .ok .quiet }
  else
    let ps := pattern.vertices.filter (pattern.labelOf? · == some view.value)
    let (verdict, m) ← seedEach? view.id ps .quiet m
    return { state := m, view, requests, verdict }

def checkedRefine (pattern : Pattern) (t : Topology) (m : Matching) (view : View Label Label) :
    Option (Update Matching Label Label) := do
  if m.table.isLive view.id then
    let ps ← m.table.candidatesOf? view.id
    let (verdict, m) ← refineEach? pattern t view ps .quiet m
    match verdict with
    | .ok .changed =>
      let edges ← view.edgesOf? (← t.links? view.id)
      let requests := (edges.map (Request.add ·.far true)).toArray
      return { state := m, view, requests, verdict }
    | _ => return { state := m, view, verdict }
  else
    return { state := m, view, verdict := .ok .quiet }

def checkedProgram (pattern : Pattern) (labels : VertexId → Label) (t : Topology) :
    CheckedProgram Matching Label Label where
  update ctx m view :=
    if ctx.iteration = 0 then checkedAssign t (labels view.id) m view
    else if m.table.isSealed then checkedRefine pattern t m view
    else checkedSeed pattern m view
  beforeIteration := (program pattern labels).beforeIteration
  afterIteration _ _ m := do
    return ({ m with history := m.history.push (← m.table.total?) }, none)

/-- Matches a pattern in the labelled graph of an edge list, from an empty table. -/
def checkedSolve (l : EdgeList) (pattern : Pattern) (labels : VertexId → Label)
    (settings : Settings) : Except (Trap Fault) Found := do
  return .ofRun (← CheckedProgram.runOn (checkedProgram pattern labels) settings
    (fun vertexCount => { table := .ofCapacity vertexCount pattern.vertexCount }) l)

/-- Refines the candidates of an existing table, which is sealed first. -/
def checkedRefineAgain (l : EdgeList) (pattern : Pattern) (table : Candidates)
    (labels : VertexId → Label) (settings : Settings) : Except (Trap Fault) Found := do
  return .ofRun (← CheckedProgram.runOn (checkedProgram pattern labels) settings
    (fun _ => { table := table.sealed }) l)

variable {n : Nat} {arcs : Array (PatternId × PatternId)} {wanted : Array Label}
  {pattern : Pattern} {labels : VertexId → Label} {l : EdgeList} {t : Topology} {m : Matching}
  {view : View Label Label} {u : VertexId} {ps : List PatternId} {activity : Activity}

/-! ## Seeding -/

/-- Adding candidates misses nothing, and leaves a well-formed table. -/
theorem seedEach?_eq (h : m.table.WF) :
    seedEach? u ps activity m = some (seedEach u ps activity m) ∧
      (seedEach u ps activity m).2.table.WF := by
  induction ps generalizing activity m with
  | nil => exact ⟨rfl, h⟩
  | cons p ps ih =>
    obtain ⟨table, seeded, pruned, history⟩ := m
    have hadd := h.add (u := u) (p := p)
    simp only [seedEach?, seedEach, Candidates.add?_eq h, Option.bind_eq_bind, Option.bind_some]
    rcases hpair : table.add u p with ⟨_ | isNew, table'⟩ <;> rw [hpair] at hadd
    · exact ⟨rfl, hadd⟩
    · cases isNew with
      | false => exact ih hadd
      | true => exact ih hadd

theorem checkedSeed_eq (h : m.table.WF) :
    checkedSeed pattern m view = some (seed pattern m view) := by
  simp only [checkedSeed, seed, (seedEach?_eq h).1, Option.bind_eq_bind, Option.bind_some]
  split <;> rfl

theorem wf_seed (h : m.table.WF) : (seed pattern m view).state.table.WF := by
  unfold seed
  simp only
  split
  · exact h
  · exact (seedEach?_eq h).2

/-! ## Refining -/

theorem covers?_eq (hpattern : Pattern.build n arcs wanted = .ok pattern)
    (harcs : arcs.size ≤ maxWord) (ht : t.Packs l.graph) (hview : view.Opens l) {table : Candidates}
    (h : table.WF) (p : PatternId) :
    covers? pattern t table view p = some (covers pattern table view p) := by
  simp only [covers?, Pattern.neighborsOf?_eq hpattern harcs, Option.bind_eq_bind, Option.bind_some]
  refine allM_eq_some fun q _ => ?_
  cases pattern.labelOf? q with
  | none => rfl
  | some wanted =>
    have hlook : ∀ link ∈ view.outLinks.toList, (do
        let edge ← view.edgeOf? link
        if edge.value == wanted then table.contains? edge.far q else return false) =
          some ((view.edgeOf link).value == wanted && table.contains (view.edgeOf link).far q) := by
      intro link hlink
      have hslot := hview.slot_lt_of_mem_outLinks (Array.mem_toList_iff.1 hlink)
      simp only [View.edgeOf?_eq hslot, Candidates.contains?_eq h, Option.bind_eq_bind,
        Option.bind_some]
      cases (view.edgeOf link).value == wanted <;> rfl
    simp only [hview.outLinks?_eq ht, Option.bind_some, View.outEdges, List.any_map]
    exact anyM_eq_some hlook

/-- Dropping candidates misses nothing, and leaves a well-formed table, whatever the list is. -/
theorem refineEach?_eq (hpattern : Pattern.build n arcs wanted = .ok pattern)
    (harcs : arcs.size ≤ maxWord) (ht : t.Packs l.graph) (hview : view.Opens l)
    (h : m.table.WF) :
    refineEach? pattern t view ps activity m = some (refineEach pattern view ps activity m) ∧
      (refineEach pattern view ps activity m).2.table.WF := by
  induction ps generalizing activity m with
  | nil => exact ⟨rfl, h⟩
  | cons p ps ih =>
    obtain ⟨table, seeded, pruned, history⟩ := m
    have hprune := h.prune (u := view.id) (p := p)
    simp only [refineEach?, refineEach, covers?_eq hpattern harcs ht hview h,
      Candidates.prune?_eq h, Option.bind_eq_bind, Option.bind_some]
    cases covers pattern table view p with
    | true => exact ih h
    | false =>
      rcases hpair : table.prune view.id p with ⟨_ | wasThere, table'⟩ <;> rw [hpair] at hprune
      · exact ⟨rfl, hprune⟩
      · exact ih hprune

theorem checkedRefine_eq (hpattern : Pattern.build n arcs wanted = .ok pattern)
    (harcs : arcs.size ≤ maxWord) (ht : t.Packs l.graph) (hview : view.Opens l)
    (h : m.table.WF) : checkedRefine pattern t m view = some (refine pattern m view) := by
  have hedges : view.edgesOf? view.links.toList = some (view.links.toList.map view.edgeOf) :=
    View.edgesOf?_eq fun link => hview.slot_lt_of_mem_links
  have hrequests : ((view.links.toList.map view.edgeOf).map (Request.add ·.far true)).toArray =
      view.links.map (.add ·.far true) := by
    rw [List.map_map, ← Array.toList_map, Array.toArray_toList]
    rfl
  unfold checkedRefine refine
  split
  · simp only [Candidates.candidatesOf?_eq h, (refineEach?_eq hpattern harcs ht hview h).1,
      hview.links?_eq ht, hedges, hrequests, Option.bind_eq_bind, Option.bind_some]
    cases (refineEach pattern view (m.table.candidatesOf view.id) .quiet m).1 with
    | error fault => rfl
    | ok activity =>
      cases activity <;> rfl
  · rfl

theorem wf_refine (hpattern : Pattern.build n arcs wanted = .ok pattern)
    (harcs : arcs.size ≤ maxWord) (ht : t.Packs l.graph) (hview : view.Opens l)
    (h : m.table.WF) : (refine pattern m view).state.table.WF := by
  unfold refine
  split
  · exact (refineEach?_eq hpattern harcs ht hview h).2
  · exact h

/-! ## The program -/

theorem checkedAssign_eq (ht : t.Packs l.graph) (hview : view.Opens l) {label : Label} :
    checkedAssign t label m view = some (assign label m view) := by
  have hset : (view.setValue label).Opens l := hview.setValue
  simp only [checkedAssign, hset.inLinks?_eq ht,
    View.writeAll?_eq fun link => hset.slot_lt_of_mem_inLinks, Option.bind_eq_bind,
    Option.bind_some]
  rfl

theorem wf_beforeIteration {control : Control} (h : m.table.WF) :
    ((program pattern labels).beforeIteration control m).1.table.WF := by
  simp only [program]
  split
  · exact Candidates.wf_sealed.2 h
  · exact h

/-- **The checked simulation follows the simulation** as long as the table is well formed, and it
stays so. -/
theorem follows (hpattern : Pattern.build n arcs wanted = .ok pattern)
    (harcs : arcs.size ≤ maxWord) (ht : t.Packs l.graph) (labels : VertexId → Label) :
    (checkedProgram pattern labels t).Follows (program pattern labels) l fun m => m.table.WF where
  update h hview := by
    simp only [checkedProgram, program, checkedAssign_eq ht hview,
      checkedRefine_eq hpattern harcs ht hview h, checkedSeed_eq h]
    split
    · rfl
    · split <;> rfl
  size _ hview := by
    refine Eq.trans ?_ hview.size
    simp only [program]
    split
    · exact View.size_slots_writeAll
    · split
      · unfold refine
        split <;> rfl
      · unfold seed
        simp only
        split <;> rfl
  fits_update h hview := by
    simp only [program]
    split
    · exact h
    · split
      · exact wf_refine hpattern harcs ht hview h
      · exact wf_seed h
  before := rfl
  fits_before h := wf_beforeIteration h
  after h := by
    simp only [checkedProgram, program, Candidates.total?_eq h]
    rfl
  fits_after h := h
  beforeWindow _ := rfl
  afterWindow _ := rfl

theorem checkedSolve_eq (hpattern : Pattern.build n arcs wanted = .ok pattern)
    (harcs : arcs.size ≤ maxWord) (hl : l.Built) (hn : l.vertexCount ≤ maxWord)
    (labels : VertexId → Label) (settings : Settings) :
    checkedSolve l pattern labels settings =
      (solve l pattern labels settings).mapError .failed := by
  have hrun := CheckedProgram.Follows.runOn_eq
    (fun vertexCount => { table := .ofCapacity vertexCount pattern.vertexCount })
    (fun ht => follows hpattern harcs ht labels) hl hn (.ofCapacity ..) settings
  rw [checkedSolve, hrun]
  unfold solve VertexProgram.runOn DataGraph.ofEdgeList
  cases hg : Adjacency.ofEdgeList l with
  | error fault => rfl
  | ok g =>
    obtain rfl : g = l.graph := Adjacency.eq_ofEdges_of_ofEdgeList hg
    have hcount : (DataGraph.ofAdjacency l.graph : DataGraph Label Label).adjacency.vertexCount =
      l.vertexCount := Adjacency.vertexCount_ofEdges
    simp only [Except.map, bind, Except.bind, hcount]
    cases (program pattern labels).runToEnd settings _ _ <;> rfl

theorem checkedRefineAgain_eq (hpattern : Pattern.build n arcs wanted = .ok pattern)
    (harcs : arcs.size ≤ maxWord) (hl : l.Built) (hn : l.vertexCount ≤ maxWord)
    {table : Candidates} (htable : table.WF) (labels : VertexId → Label) (settings : Settings) :
    checkedRefineAgain l pattern table labels settings =
      (refineAgain l pattern table labels settings).mapError .failed := by
  have hrun := CheckedProgram.Follows.runOn_eq (fun _ => { table := table.sealed })
    (fun ht => follows hpattern harcs ht labels) hl hn (Candidates.wf_sealed.2 htable) settings
  rw [checkedRefineAgain, hrun]
  unfold refineAgain
  cases (program pattern labels).runOn settings { table := table.sealed } l <;> rfl

end VertexSweep.Simulation
