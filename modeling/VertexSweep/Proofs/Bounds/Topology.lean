import VertexSweep.Proofs.Bounds.PackedRows
import VertexSweep.Proofs.Graph.Walks

/-!
# Links in compact form

The edges of a graph in four arrays: the far ends of all edges, and packed rows of edge ids, once
for the edges from each vertex and once for those to it. A link is found by its number in a row
(`Topology.Side.link?`), or by its number among all incident edges, in-edges first
(`Topology.link?`). All of this is tested, from the construction on. For the edges of a list the
construction succeeds, and whatever number of a vertex of the graph is looked up, the compact form
has the link that the graph has (`Topology.exists_build?`).
-/

namespace VertexSweep

namespace Topology

/-- The edges on one side of all vertices, as rows of edge ids, and the far end of every edge. -/
structure Side where
  rows : PackedRows UInt32
  fars : Array VertexId
deriving DecidableEq, Repr

namespace Side

/-- One side of the edges of a graph with `n` vertices, where an edge is at its end `near`. -/
def build? (n : Nat) (edges : Array (VertexId × VertexId))
    (near far : VertexId × VertexId → VertexId) : Option Side := do
  let rows ← PackedRows.build? n (edges.mapIdx fun slot e => (near e, UInt32.ofNat slot))
  return { rows, fars := edges.map far }

/-- How many edges there are at `v`. -/
def degree? (side : Side) (v : VertexId) : Option Nat := (side.rows.row? v.toNat).map (·.size)

/-- The edge number `i` at `v`. -/
def link? (side : Side) (v : VertexId) (i : Nat) : Option Link := do
  let slot ← (← side.rows.row? v.toNat)[i]?
  return ⟨slot.toNat, ← side.fars[slot.toNat]?⟩

/-- The side has the given links at the vertices below `n`. -/
structure Packs (side : Side) (n : Nat) (links : VertexId → Array Link) : Prop where
  degree? : ∀ {v : VertexId}, v.toNat < n → side.degree? v = some (links v).size
  link? : ∀ {v : VertexId} (i : Nat), v.toNat < n → side.link? v i = (links v)[i]?

variable {n k i : Nat} {edges : Array (VertexId × VertexId)} {v : VertexId}
  {near far : VertexId × VertexId → VertexId}

/-- The links at the vertex `k`, in the order of their slots. -/
def linksAt (edges : Array (VertexId × VertexId)) (near far : VertexId × VertexId → VertexId)
    (k : Nat) : Array Link :=
  ((edges.mapIdx fun slot e => (near e, (⟨slot, far e⟩ : Link))).filter (·.1.toNat == k)).map (·.2)

/-- Each row of an accepted list holds the links of its vertex; elsewhere there are none. -/
theorem getD_rowsByKey (hnear : ∀ e ∈ edges, (near e).toNat < n) :
    (rowsByKey n (edges.mapIdx fun slot e => (near e, (⟨slot, far e⟩ : Link)))).getD v.toNat #[] =
      linksAt edges near far v.toNat := by
  rw [Array.getD_eq_getD_getElem?]
  by_cases hv : v.toNat < n
  · rw [getElem?_rowsByKey hv]
    rfl
  · have hnone : (rowsByKey n
        (edges.mapIdx fun slot e => (near e, (⟨slot, far e⟩ : Link))))[v.toNat]? = none :=
      Array.getElem?_eq_none (by rw [size_rowsByKey]; omega)
    rw [hnone, linksAt, Array.filter_eq_empty_iff.2, Array.map_empty]
    · rfl
    · intro item hitem
      obtain ⟨slot, hslot, rfl⟩ := Array.mem_mapIdx.1 hitem
      have hlt := hnear _ (Array.getElem_mem hslot)
      simp only [beq_iff_eq]
      omega

/-- The rows hold the slots of the links. -/
theorem map_slot_linksAt (far : VertexId × VertexId → VertexId) :
    ((edges.mapIdx fun slot e => (near e, UInt32.ofNat slot)).filter (·.1.toNat == k)).map (·.2) =
      (linksAt edges near far k).map fun link => UInt32.ofNat link.slot := by
  have hitems : (edges.mapIdx fun slot e => (near e, UInt32.ofNat slot)) =
      (edges.mapIdx fun slot e => (near e, (⟨slot, far e⟩ : Link))).map
        fun item => (item.1, UInt32.ofNat item.2.slot) :=
    Array.ext (by simp) fun i _ _ => by simp
  rw [hitems, Array.filter_map, Array.map_map, linksAt, Array.map_map]
  rfl

/-- What a link says about the edge in its slot. -/
theorem getElem?_slot {link : Link} (hlink : link ∈ linksAt edges near far k) :
    (edges.map far)[link.slot]? = some link.far := by
  obtain ⟨item, hitem, rfl⟩ := Array.mem_map.1 hlink
  obtain ⟨slot, hslot, rfl⟩ := Array.mem_mapIdx.1 (Array.mem_filter.1 hitem).1
  rw [Array.getElem?_map, Array.getElem?_eq_getElem hslot]
  rfl

/-- The slot of a link is still the same when it is read from its row. -/
theorem toNat_slot {link : Link} (hlink : link ∈ linksAt edges near far k)
    (hsize : edges.size ≤ maxWord) : (UInt32.ofNat link.slot).toNat = link.slot := by
  have hlt : link.slot < edges.size := by
    have hlt := (Array.getElem?_eq_some_iff.1 (getElem?_slot hlink)).1
    rwa [Array.size_map] at hlt
  exact UInt32.toNat_ofNat_of_lt' (Nat.lt_succ_of_lt (Nat.lt_of_lt_of_le hlt hsize))

/-- The side of an array of edges is built, and has the links that the nested rows have. -/
theorem exists_build? (n : Nat) (near far : VertexId × VertexId → VertexId)
    (hnear : ∀ e ∈ edges, (near e).toNat < n) (hsize : edges.size ≤ maxWord) :
    ∃ side, build? n edges near far = some side ∧ side.rows.offsets.size = n + 1 ∧
      side.Packs n fun v => (rowsByKey n
        (edges.mapIdx fun slot e => (near e, (⟨slot, far e⟩ : Link)))).getD v.toNat #[] := by
  obtain ⟨rows, hrows, hoffsets, hrow⟩ := PackedRows.exists_build? n
    (edges.mapIdx fun slot e => (near e, UInt32.ofNat slot)) (fun item hitem => by
      obtain ⟨slot, hslot, rfl⟩ := Array.mem_mapIdx.1 hitem
      exact hnear _ (Array.getElem_mem hslot))
  refine ⟨⟨rows, edges.map far⟩, ?_, hoffsets, fun {v} hv => ?_, fun {v} i hv => ?_⟩
  · simp only [build?, hrows, Option.bind_eq_bind, Option.bind_some]
    rfl
  · simp only [Side.degree?, hrow _ hv, map_slot_linksAt far, getD_rowsByKey hnear,
      Option.map_some, Array.size_map]
  · simp only [Side.link?, hrow _ hv, map_slot_linksAt far, getD_rowsByKey hnear,
      Option.bind_eq_bind, Option.bind_some, Array.getElem?_map]
    cases hlink : (linksAt edges near far v.toNat)[i]? with
    | none => rfl
    | some link =>
      have hmem := Array.mem_of_getElem? hlink
      simp only [Option.map_some, Option.bind_some, toNat_slot hmem hsize]
      rw [← Array.getElem?_map, getElem?_slot hmem]
      rfl

end Side

end Topology

/-- The edges of a graph in compact form. -/
structure Topology where
  outgoing : Topology.Side
  incoming : Topology.Side
deriving DecidableEq, Repr

namespace Topology

/-- The compact form of the edges of a list. -/
def build? (l : EdgeList) : Option Topology := do
  let outgoing ← Side.build? l.vertexCount l.edges (·.1) (·.2)
  let incoming ← Side.build? l.vertexCount l.edges (·.2) (·.1)
  return { outgoing, incoming }

/-- How many vertices there are. -/
def vertexCount (t : Topology) : Nat := t.outgoing.rows.offsets.size - 1

/-- The incident edge number `i` of `v`, in-edges first. -/
def link? (t : Topology) (v : VertexId) (i : Nat) : Option Link := do
  let indegree ← t.incoming.degree? v
  if i < indegree then t.incoming.link? v i else t.outgoing.link? v (i - indegree)

/-- The in-edges of `v`, one after the other. -/
def inLinks? (t : Topology) (v : VertexId) : Option (List Link) := do
  (List.range' 0 (← t.incoming.degree? v)).mapM (t.incoming.link? v)

/-- The out-edges of `v`, one after the other. -/
def outLinks? (t : Topology) (v : VertexId) : Option (List Link) := do
  (List.range' 0 (← t.outgoing.degree? v)).mapM (t.outgoing.link? v)

/-- All incident edges of `v`, by their common numbers. -/
def links? (t : Topology) (v : VertexId) : Option (List Link) := do
  (List.range' 0 ((← t.incoming.degree? v) + (← t.outgoing.degree? v))).mapM (t.link? v)

/-- The out-edges of `v`, by the numbers that they have among all incident edges. -/
def laterLinks? (t : Topology) (v : VertexId) : Option (List Link) := do
  (List.range' (← t.incoming.degree? v) (← t.outgoing.degree? v)).mapM (t.link? v)

/-- The compact form has as many vertices as the graph and, at each of them, the links of the
graph. -/
structure Packs (t : Topology) (g : Adjacency) : Prop where
  vertexCount : t.vertexCount = g.vertexCount
  outgoing : t.outgoing.Packs g.vertexCount g.outOf
  incoming : t.incoming.Packs g.vertexCount g.inOf

/-- **The edges of a list have a compact form**, which has the links of the graph of the list. -/
theorem exists_build? {l : EdgeList} (hl : l.Built) (hsize : l.edges.size ≤ maxWord) :
    ∃ t, build? l = some t ∧ t.Packs l.graph := by
  obtain ⟨outgoing, hout, hoffsets, houtgoing⟩ := Side.exists_build? l.vertexCount
    (·.1) (·.2) (fun e he => (hl.lt_vertexCount he).1) hsize
  obtain ⟨incoming, hin, -, hincoming⟩ := Side.exists_build? l.vertexCount
    (·.2) (·.1) (fun e he => (hl.lt_vertexCount he).2) hsize
  refine ⟨⟨outgoing, incoming⟩, ?_, ?_, ?_, ?_⟩
  · simp only [build?, hout, hin, Option.bind_eq_bind, Option.bind_some]
    rfl
  · rw [Topology.vertexCount, hoffsets, Adjacency.vertexCount_ofEdges]
    rfl
  · rw [Adjacency.vertexCount_ofEdges]
    exact houtgoing
  · rw [Adjacency.vertexCount_ofEdges]
    exact hincoming

/-- Looking up consecutive numbers gives the links in their order. -/
private theorem mapM_range' {link? : Nat → Option Link} {links : List Link} (first : Nat)
    (h : ∀ i, i < links.length → link? (first + i) = links[i]?) :
    (List.range' first links.length).mapM link? = some links := by
  induction links generalizing first with
  | nil => rfl
  | cons link links ih =>
    have hrest := ih (first + 1) fun i hi => by
      have hnext := h (i + 1) (Nat.succ_lt_succ hi)
      rwa [List.getElem?_cons_succ, show first + (i + 1) = first + 1 + i by omega] at hnext
    have hfirst : link? first = some link := h 0 (Nat.succ_pos _)
    rw [List.length_cons, List.range'_succ, List.mapM_cons, hfirst, hrest]
    rfl

namespace Packs

variable {t : Topology} {g : Adjacency} {v : VertexId} {i : Nat}

theorem link?_eq (h : t.Packs g) (hv : v.toNat < g.vertexCount) :
    t.link? v i = (g.inOf v ++ g.outOf v)[i]? := by
  simp only [link?, h.incoming.degree? hv, Option.bind_eq_bind, Option.bind_some]
  rw [Array.getElem?_append]
  split
  · exact h.incoming.link? i hv
  · exact h.outgoing.link? _ hv

theorem inLinks?_eq (h : t.Packs g) (hv : v.toNat < g.vertexCount) :
    t.inLinks? v = some (g.inOf v).toList := by
  simp only [inLinks?, h.incoming.degree? hv, Option.bind_eq_bind, Option.bind_some,
    ← Array.length_toList]
  apply mapM_range'
  intro i _
  rw [h.incoming.link? _ hv, Nat.zero_add, Array.getElem?_toList]

theorem outLinks?_eq (h : t.Packs g) (hv : v.toNat < g.vertexCount) :
    t.outLinks? v = some (g.outOf v).toList := by
  simp only [outLinks?, h.outgoing.degree? hv, Option.bind_eq_bind, Option.bind_some,
    ← Array.length_toList]
  apply mapM_range'
  intro i _
  rw [h.outgoing.link? _ hv, Nat.zero_add, Array.getElem?_toList]

theorem links?_eq (h : t.Packs g) (hv : v.toNat < g.vertexCount) :
    t.links? v = some (g.inOf v ++ g.outOf v).toList := by
  simp only [links?, h.incoming.degree? hv, h.outgoing.degree? hv, Option.bind_eq_bind,
    Option.bind_some]
  rw [← Array.size_append, ← Array.length_toList]
  apply mapM_range'
  intro i _
  rw [h.link?_eq hv, Nat.zero_add, Array.getElem?_toList]

theorem laterLinks?_eq (h : t.Packs g) (hv : v.toNat < g.vertexCount) :
    t.laterLinks? v = some (g.outOf v).toList := by
  simp only [laterLinks?, h.incoming.degree? hv, h.outgoing.degree? hv, Option.bind_eq_bind,
    Option.bind_some]
  have hlength : (g.outOf v).size = (g.outOf v).toList.length := Array.length_toList.symm
  rw [hlength]
  apply mapM_range'
  intro i _
  rw [h.link?_eq hv, Array.getElem?_append_right (Nat.le_add_right ..), Nat.add_sub_cancel_left,
    Array.getElem?_toList]

end Packs

end Topology

end VertexSweep
