import VertexSweep.Match.Simulation
import VertexSweep.Proofs.Graph.Links
import VertexSweep.Proofs.Match.Pattern

/-!
# Coverage

A matching `Problem` is an edge list, a pattern and a labelling, all of them made by the operations
that make such things. `Problem.Covered` says that a relation meets the demands of the pattern
at one pair; it is monotone in the relation. Simulations are the relations that respect labels and
cover their own pairs (`Problem.IsSimulation`). The check that a run carries out at a vertex reads
labels off the edge slots; it decides coverage once the slots are labelled (`covers_iff`).
-/

namespace VertexSweep

/-- The relation that a table stands for. -/
abbrev Candidates.relation (t : Candidates) : VertexId → PatternId → Prop :=
  fun u p => t.contains u p = true

namespace Simulation

/-- A pattern to be matched in the graph of an edge list whose vertices are labelled. -/
structure Problem where
  list : EdgeList
  /-- The label of each data vertex. -/
  labels : VertexId → Label
  /-- The edges from which the pattern was built. -/
  arcs : Array (PatternId × PatternId)
  /-- The labels from which the pattern was built. -/
  wanted : Array Label
  pattern : Pattern
  listBuilt : list.Built
  /-- The largest word is no vertex, since it is never scheduled. -/
  vertexCount_le : list.vertexCount ≤ maxWord
  patternBuilt : Pattern.build wanted.size arcs wanted = .ok pattern
  size_arcs_le : arcs.size ≤ maxWord

/-- A cycle of two vertices, to be matched in a graph that has such a cycle and an edge apart. -/
def twoCycle : Problem where
  list := .ofList [(0, 1), (1, 0), (2, 3)]
  labels v := if v % 2 = 0 then 1 else 2
  arcs := #[(0, 1), (1, 0)]
  wanted := #[1, 2]
  pattern := ⟨#[0, 1, 2], #[1, 0], #[1, 2]⟩
  listBuilt := .ofList _
  vertexCount_le := by decide
  patternBuilt := by rfl
  size_arcs_le := by decide

namespace Problem

variable {P : Problem} {R S : VertexId → PatternId → Prop} {u v : VertexId} {p q : PatternId}

/-- How many data vertices there are. -/
abbrev vertexCount (P : Problem) : Nat := P.list.vertexCount

/-- The data graph. -/
def graph (P : Problem) : Adjacency := .ofEdges P.list.vertexCount P.list.edges

@[simp]
theorem vertexCount_graph : P.graph.vertexCount = P.vertexCount := Adjacency.vertexCount_ofEdges

/-- `p` is a pattern vertex with the label of `u`. -/
def Agrees (P : Problem) (u : VertexId) (p : PatternId) : Prop :=
  P.wanted[p.toNat]? = some (P.labels u)

/-- For every pattern edge `p → q` there is a data edge from `u` to a vertex that has the label of
`q` and is related to `q`. -/
def Covered (P : Problem) (R : VertexId → PatternId → Prop) (u : VertexId) (p : PatternId) : Prop :=
  ∀ q, (p, q) ∈ P.arcs → ∃ v, (u, v) ∈ P.list.edges ∧ P.Agrees v q ∧ R v q

/-- Related vertices have equal labels, and for every pattern edge from one there is a data edge
from the other such that the targets are related. -/
def IsSimulation (P : Problem) (R : VertexId → PatternId → Prop) : Prop :=
  ∀ u p, R u p → u.toNat < P.vertexCount ∧ P.Agrees u p ∧
    ∀ q, (p, q) ∈ P.arcs → ∃ v, (u, v) ∈ P.list.edges ∧ R v q

theorem Covered.mono (h : P.Covered R u p) (hle : ∀ v q, R v q → S v q) : P.Covered S u p := by
  intro q hq
  obtain ⟨v, hedge, hagrees, hv⟩ := h q hq
  exact ⟨v, hedge, hagrees, hle v q hv⟩

/-- The coverage of a pair depends on the out-neighbors only. -/
theorem Covered.congr (h : P.Covered R u p)
    (hsame : ∀ v q, (u, v) ∈ P.list.edges → R v q → S v q) : P.Covered S u p := by
  intro q hq
  obtain ⟨v, hedge, hagrees, hv⟩ := h q hq
  exact ⟨v, hedge, hagrees, hsame v q hedge hv⟩

theorem IsSimulation.covered (h : P.IsSimulation R) (hp : R u p) : P.Covered R u p := by
  intro q hq
  obtain ⟨v, hedge, hv⟩ := (h u p hp).2.2 q hq
  exact ⟨v, hedge, (h v q hv).2.1, hv⟩

theorem isVertex_of_edge (h : (u, v) ∈ P.list.edges) :
    u.toNat < P.vertexCount ∧ v.toNat < P.vertexCount := P.listBuilt.lt_vertexCount h

theorem vertexCount_pattern : P.pattern.vertexCount = P.wanted.size :=
  Pattern.vertexCount_build P.patternBuilt

theorem labelOf?_pattern : P.pattern.labelOf? p = P.wanted[p.toNat]? :=
  Pattern.labelOf?_build P.patternBuilt

theorem mem_neighborsOf : q ∈ P.pattern.neighborsOf p ↔ (p, q) ∈ P.arcs :=
  Pattern.mem_neighborsOf_build P.patternBuilt P.size_arcs_le

theorem mem_vertices : p ∈ P.pattern.vertices ↔ p.toNat < P.wanted.size := by
  have hle : P.wanted.size ≤ maxWord := (Pattern.build_eq_ok P.patternBuilt).2.1
  rw [Pattern.mem_vertices (by rwa [vertexCount_pattern]), vertexCount_pattern]

/-- Only pattern vertices have a label to agree with. -/
theorem Agrees.lt_size (h : P.Agrees u p) : p.toNat < P.wanted.size :=
  (Array.getElem?_eq_some_iff.1 h).1

/-! ## Labels on edges -/

/-- The vertices below `k` carry their labels, and so do the edges to them. -/
structure LabelledBelow (P : Problem) (k : Nat) (values slots : Array Label) : Prop where
  size_values : values.size = P.vertexCount
  size_slots : slots.size = P.list.edges.size
  value : ∀ v : VertexId, v.toNat < k → v.toNat < P.vertexCount →
    values[v.toNat]? = some (P.labels v)
  slot : ∀ {j : Nat} {u v : VertexId}, P.list.edges[j]? = some (u, v) → v.toNat < k →
    slots[j]? = some (P.labels v)

variable {values slots : Array Label} {k : Nat}

/-- One vertex more is labelled by writing its label onto its in-edges. -/
theorem LabelledBelow.succ (h : P.LabelledBelow v.toNat values slots) (view : View Label Label)
    (hid : view.id = v) (hgraph : view.adjacency = P.graph) (hslots : view.slots = slots) :
    P.LabelledBelow (v.toNat + 1) (values.setIfInBounds v.toNat (P.labels v))
      (view.writeAll view.inLinks (P.labels v)).slots where
  size_values := by rw [Array.size_setIfInBounds, h.size_values]
  size_slots := by rw [View.size_slots_writeAll, hslots, h.size_slots]
  value w hw hlt := by
    by_cases heq : w = v
    · subst heq
      exact Array.getElem?_setIfInBounds_self_of_lt (by rwa [h.size_values])
    · have hne : w.toNat ≠ v.toNat := fun hnat => heq (UInt32.toNat_inj.1 hnat)
      rw [Array.getElem?_setIfInBounds_ne hne.symm]
      exact h.value w (by omega) hlt
  slot {j u w} hj hw := by
    have hsize : j < view.slots.size := by
      rw [hslots, h.size_slots]
      exact (Array.getElem?_eq_some_iff.1 hj).1
    have hin : ∀ link, link ∈ view.inLinks ↔
        v.toNat < P.vertexCount ∧ P.list.edges[link.slot]? = some (link.far, v) := by
      intro link
      rw [View.inLinks, hid, hgraph]
      exact Adjacency.mem_inOf_ofEdges
    rw [View.getElem?_writeAll hsize]
    by_cases heq : w = v
    · subst heq
      have hvertex := (isVertex_of_edge (Array.mem_of_getElem? hj)).2
      rw [if_pos ⟨⟨j, u⟩, (hin ⟨j, u⟩).2 ⟨hvertex, hj⟩, rfl⟩]
    · rw [if_neg, hslots]
      · have hne : w.toNat ≠ v.toNat := fun hnat => heq (UInt32.toNat_inj.1 hnat)
        exact h.slot hj (by omega)
      · rintro ⟨link, hlink, rfl⟩
        have hedge := ((hin link).1 hlink).2
        rw [hj] at hedge
        cases hedge
        exact heq rfl

end Problem

/-! ## The check at a vertex -/

variable {P : Problem} {table : Candidates} {view : View Label Label} {p : PatternId}

/-- **The check decides coverage** once the edges are labelled. -/
theorem covers_iff {values : Array Label} (h : P.LabelledBelow P.vertexCount values view.slots)
    (hgraph : view.adjacency = P.graph) :
    covers P.pattern table view p = true ↔
      P.Covered table.relation view.id p := by
  have hread : ∀ link : Link, P.list.edges[link.slot]? = some (view.id, link.far) →
      view.read link = P.labels link.far := by
    intro link hlink
    have hvertex := (Problem.isVertex_of_edge (Array.mem_of_getElem? hlink)).2
    rw [View.read, Array.getD_eq_getD_getElem?, h.slot hlink hvertex, Option.getD_some]
  have hout : ∀ {link : Link}, link ∈ view.outLinks ↔
      view.id.toNat < P.vertexCount ∧ P.list.edges[link.slot]? = some (view.id, link.far) := by
    intro link
    rw [View.outLinks, hgraph]
    exact Adjacency.mem_outOf_ofEdges
  simp only [covers, List.all_eq_true, Problem.mem_neighborsOf, Problem.labelOf?_pattern]
  refine forall_congr' fun q => imp_congr_right fun _ => ?_
  cases hwanted : P.wanted[q.toNat]? with
  | none =>
    simp [Problem.Agrees, hwanted]
  | some wanted =>
    simp only [Problem.Agrees, hwanted, List.any_eq_true, View.outEdges, List.mem_map,
      Array.mem_toList_iff, Bool.and_eq_true, beq_iff_eq, Option.some.injEq]
    constructor
    · rintro ⟨_, ⟨link, hlink, rfl⟩, hvalue, hcontains⟩
      obtain ⟨-, hedge⟩ := hout.1 hlink
      exact ⟨link.far, Array.mem_of_getElem? hedge, hvalue.symm.trans (hread link hedge), hcontains⟩
    · rintro ⟨v, hmem, hvalue, hcontains⟩
      obtain ⟨slot, hedge⟩ := Array.getElem?_of_mem hmem
      have hlink : (⟨slot, v⟩ : Link) ∈ view.outLinks :=
        hout.2 ⟨(Problem.isVertex_of_edge hmem).1, hedge⟩
      exact ⟨view.edgeOf ⟨slot, v⟩, ⟨⟨slot, v⟩, hlink, rfl⟩,
        (hread ⟨slot, v⟩ hedge).trans hvalue.symm, hcontains⟩

end Simulation

end VertexSweep
