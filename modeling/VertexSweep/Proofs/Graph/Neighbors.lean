import VertexSweep.Proofs.Bounds.Topology
import VertexSweep.Proofs.Graph.Admission

/-!
# Adjacency lists

The links of a vertex come in the order of their slots, one for each edge at that vertex
(`Topology.Side.linksAt`). So the neighbors of a vertex are the far ends of its edges in insertion
order, and the slot of an edge stands at one place among the out-links of all vertices, and at one
place among the in-links (`existsUnique_place`). An accepted edge list is indexed in this way, and
the compact form of its graph has the same links (`DataGraph.indexes_of_accepted`).
-/

namespace VertexSweep

/-! ## The links on one side -/

namespace Topology.Side

variable {edges : Array (VertexId × VertexId)} {v : VertexId} {i slot : Nat}
  {near far : VertexId × VertexId → VertexId} {e : VertexId × VertexId}

/-- The far ends of the links are those of the edges at the vertex. -/
theorem map_far_linksAt : (linksAt edges near far v.toNat).toList.map (·.far) =
    (edges.toList.filter (near · = v)).map far := by
  have hitems : (edges.mapIdx fun slot e => (near e, (⟨slot, far e⟩ : Link))).map
      (fun item => (item.1, item.2.far)) = edges.map fun e => (near e, far e) :=
    Array.ext (by simp) fun i _ _ => by simp
  have hfars : (linksAt edges near far v.toNat).map (·.far) =
      ((edges.map fun e => (near e, far e)).filter (·.1.toNat == v.toNat)).map (·.2) := by
    rw [← hitems, Array.filter_map, Array.map_map, linksAt, Array.map_map]
    rfl
  rw [← Array.toList_map, hfars, Array.filter_map, Array.map_map, Array.toList_map,
    Array.toList_filter]
  refine congrArg (List.map far) (List.filter_congr fun e _ => ?_)
  exact decide_eq_decide.2 UInt32.toNat_inj

theorem mem_linksAt {link : Link} : link ∈ linksAt edges near far v.toNat ↔
    ∃ e, edges[link.slot]? = some e ∧ near e = v ∧ far e = link.far := by
  simp only [linksAt, Array.mem_map, Array.mem_filter, Array.mem_mapIdx, beq_iff_eq,
    UInt32.toNat_inj]
  constructor
  · rintro ⟨_, ⟨⟨slot, hslot, rfl⟩, hnear⟩, rfl⟩
    exact ⟨_, Array.getElem?_eq_getElem hslot, hnear, rfl⟩
  · rintro ⟨e, he, hnear, hfar⟩
    obtain ⟨hslot, rfl⟩ := Array.getElem?_eq_some_iff.1 he
    exact ⟨_, ⟨⟨link.slot, hslot, rfl⟩, hnear⟩, by rw [hfar]⟩

/-- The links of a vertex are in the order of their slots. -/
theorem pairwise_slot_linksAt {k : Nat} :
    ((linksAt edges near far k).toList.map (·.slot)).Pairwise (· < ·) := by
  rw [linksAt, Array.toList_map, Array.toList_filter, List.map_map, List.pairwise_map]
  apply List.Pairwise.filter
  rw [Array.toList_mapIdx, List.pairwise_iff_getElem]
  intro i j _ _ hlt
  simpa using hlt

/-- The slot of an edge has a place at the near end, and no other place on this side. -/
theorem exists_place (near far : VertexId × VertexId → VertexId) (he : edges[slot]? = some e) : ∃ i,
    (linksAt edges near far (near e).toNat)[i]? = some ⟨slot, far e⟩ ∧
      ∀ {u : VertexId} {j : Nat} {link : Link}, (linksAt edges near far u.toNat)[j]? = some link →
        link.slot = slot → u = near e ∧ j = i := by
  have hlink : (⟨slot, far e⟩ : Link) ∈ linksAt edges near far (near e).toNat :=
    mem_linksAt.2 ⟨e, he, rfl, rfl⟩
  obtain ⟨i, hi⟩ := Array.getElem?_of_mem hlink
  refine ⟨i, hi, fun {u j link} hj hslot => ?_⟩
  -- The edge tells the vertex, and at that vertex no slot comes twice.
  obtain rfl : near e = u := by
    obtain ⟨e', he', hnear, -⟩ := mem_linksAt.1 (Array.mem_of_getElem? hj)
    rw [hslot, he] at he'
    cases he'
    exact hnear
  have hnodup : ((linksAt edges near far (near e).toNat).toList.map (·.slot)).Nodup :=
    pairwise_slot_linksAt.imp Nat.ne_of_lt
  have hlt : j < ((linksAt edges near far (near e).toNat).toList.map (·.slot)).length := by
    simpa using (Array.getElem?_eq_some_iff.1 hj).1
  refine ⟨rfl, (List.getElem?_inj hlt hnodup).1 ?_⟩
  rw [List.getElem?_map, List.getElem?_map, Array.getElem?_toList, Array.getElem?_toList, hi, hj]
  exact congrArg some hslot

/-- **The slot of an edge stands at one place** among the links of all vertices. -/
theorem existsUnique_place (he : edges[slot]? = some e) : ∃! place : VertexId × Nat,
    ((linksAt edges near far place.1.toNat).toList.map (·.slot))[place.2]? = some slot := by
  simp only [List.getElem?_map, Array.getElem?_toList, Option.map_eq_some_iff]
  obtain ⟨i, hi, honly⟩ := exists_place near far he
  refine ⟨(near e, i), ⟨_, hi, rfl⟩, fun (u, j) ⟨link, hj, hslot⟩ => ?_⟩
  obtain ⟨rfl, rfl⟩ := honly hj hslot
  rfl

end Topology.Side

/-! ## Accepted lists -/

namespace Adjacency

/-- The slots of the edges from `v`. -/
def outSlots (g : Adjacency) (v : VertexId) : List Nat := (g.outOf v).toList.map (·.slot)

/-- The slots of the edges to `v`. -/
def inSlots (g : Adjacency) (v : VertexId) : List Nat := (g.inOf v).toList.map (·.slot)

/-- The adjacency lists are those of the edges, which are told by their slots. -/
structure Indexes (g : Adjacency) (l : EdgeList) : Prop where
  vertexCount : g.vertexCount = l.vertexCount
  outNeighbors : ∀ v, g.outNeighbors v = (l.edges.toList.filter (·.1 = v)).map (·.2)
  inNeighbors : ∀ v, g.inNeighbors v = (l.edges.toList.filter (·.2 = v)).map (·.1)
  endpoints? : ∀ slot, g.endpoints? slot = l.edges[slot]?
  outSlots : ∀ v, (g.outSlots v).map g.endpoints? = (g.outNeighbors v).map fun w => some (v, w)
  inSlots : ∀ v, (g.inSlots v).map g.endpoints? = (g.inNeighbors v).map fun u => some (u, v)
  existsUnique_out : ∀ slot, slot < l.size →
    ∃! place : VertexId × Nat, (g.outSlots place.1)[place.2]? = some slot
  existsUnique_in : ∀ slot, slot < l.size →
    ∃! place : VertexId × Nat, (g.inSlots place.1)[place.2]? = some slot
  outside : ∀ v, l.vertexCount ≤ v.toNat → g.outNeighbors v = [] ∧ g.inNeighbors v = []

end Adjacency

namespace EdgeList

variable {l : EdgeList} {v : VertexId}

open Topology.Side

theorem Built.outOf_graph (hl : l.Built) :
    l.graph.outOf v = linksAt l.edges (·.1) (·.2) v.toNat :=
  getD_rowsByKey fun _ he => (hl.lt_vertexCount he).1

theorem Built.inOf_graph (hl : l.Built) :
    l.graph.inOf v = linksAt l.edges (·.2) (·.1) v.toNat :=
  getD_rowsByKey fun _ he => (hl.lt_vertexCount he).2

theorem Built.indexes (hl : l.Built) : l.graph.Indexes l where
  vertexCount := Adjacency.vertexCount_ofEdges
  outNeighbors v := by
    rw [Adjacency.outNeighbors, hl.outOf_graph]
    exact map_far_linksAt
  inNeighbors v := by
    rw [Adjacency.inNeighbors, hl.inOf_graph]
    exact map_far_linksAt
  endpoints? slot := rfl
  outSlots v := by
    rw [Adjacency.outSlots, Adjacency.outNeighbors, List.map_map, List.map_map]
    apply List.map_congr_left
    intro link hlink
    exact (Adjacency.mem_outOf_ofEdges.1 (Array.mem_toList_iff.1 hlink)).2
  inSlots v := by
    rw [Adjacency.inSlots, Adjacency.inNeighbors, List.map_map, List.map_map]
    apply List.map_congr_left
    intro link hlink
    exact (Adjacency.mem_inOf_ofEdges.1 (Array.mem_toList_iff.1 hlink)).2
  existsUnique_out slot hslot := by
    simp only [Adjacency.outSlots, hl.outOf_graph]
    exact existsUnique_place (Array.getElem?_eq_getElem hslot)
  existsUnique_in slot hslot := by
    simp only [Adjacency.inSlots, hl.inOf_graph]
    exact existsUnique_place (Array.getElem?_eq_getElem hslot)
  outside v hv := by
    have hout : l.graph.outOf v = #[] := Array.eq_empty_iff_forall_not_mem.2 fun link hlink =>
      Nat.not_lt.2 hv (Adjacency.mem_outOf_ofEdges.1 hlink).1
    have hin : l.graph.inOf v = #[] := Array.eq_empty_iff_forall_not_mem.2 fun link hlink =>
      Nat.not_lt.2 hv (Adjacency.mem_inOf_ofEdges.1 hlink).1
    rw [Adjacency.outNeighbors, Adjacency.inNeighbors, hout, hin]
    exact ⟨rfl, rfl⟩

/-- Edges in both ways, one of them three times, two loops at a vertex, and a vertex without
edges. -/
def braid : EdgeList :=
  (ofList [(0, 1), (2, 1), (0, 1), (1, 1), (1, 0), (0, 1), (1, 1)]).reserve 4

theorem built_braid : braid.Built := (Built.ofList _).reserve 4

end EdgeList

namespace DataGraph

variable {V E : Type} [Inhabited V] [Inhabited E] {l : EdgeList} {g : DataGraph V E}

theorem eq_ofAdjacency_of_ofEdgeList (hg : ofEdgeList l = .ok g) : g = ofAdjacency l.graph := by
  unfold ofEdgeList at hg
  cases haccepted : Adjacency.ofEdgeList l with
  | error fault =>
    rw [haccepted] at hg
    cases hg
  | ok adjacency =>
    rw [haccepted] at hg
    cases hg
    rw [Adjacency.eq_ofEdges_of_ofEdgeList haccepted]

/-- **The adjacency lists of an accepted graph are exact**, and so are those in compact form, which
are sorted by counting. -/
theorem indexes_of_accepted (hl : l.Built) (hg : ofEdgeList l = .ok g) :
    g.adjacency.Indexes l ∧ ∃ t, Topology.build? l = some t ∧ t.Packs g.adjacency := by
  cases eq_ofAdjacency_of_ofEdgeList hg
  exact ⟨hl.indexes, Topology.exists_build? hl (size_le_of_ofEdgeList hg)⟩

theorem indexes_of_accepted_braid : ∃ g : DataGraph Label Label, ofEdgeList .braid = .ok g ∧
    g.adjacency.outNeighbors 0 = [1, 1, 1] ∧ g.adjacency.outNeighbors 1 = [1, 0, 1] ∧
    g.adjacency.inNeighbors 1 = [0, 2, 0, 1, 0, 1] ∧ g.adjacency.endpoints? 6 = some (1, 1) ∧
    (∃! place : VertexId × Nat, (g.adjacency.inSlots place.1)[place.2]? = some 6) ∧
    g.adjacency.outNeighbors 4 = [] := by
  obtain ⟨hindexes, -⟩ := indexes_of_accepted (V := Label) (E := Label) EdgeList.built_braid rfl
  refine ⟨_, rfl, ?_, ?_, ?_, hindexes.endpoints? 6, hindexes.existsUnique_in 6 (by decide),
    (hindexes.outside 4 (by decide)).1⟩
  · rw [hindexes.outNeighbors]
    decide
  · rw [hindexes.outNeighbors]
    decide
  · rw [hindexes.inNeighbors]
    decide

end DataGraph

end VertexSweep
