import VertexSweep.Proofs.Graph.Walks

/-!
# Lists with the same edges

Two edge lists with the same vertices may list the same edges in another order, or repeat them
(`EdgeList.SameEdges`). Their graphs have different slots, but these can be compared through the
edges: the content of a list says what the slots of every edge hold (`EdgeList.Carries`), and the
links of a vertex are told by the edges at their slots and by their far ends (`EdgeList.Lists`).
Views that open the same vertex on both graphs, with the same content, are twins (`View.Twins`):
they read the same values from the same neighbors (`View.Twins.exists_edge_iff`), and stay twins
when the same is written through them (`View.Twins.writeAll`).
-/

namespace VertexSweep

namespace EdgeList

/-- The lists have the same vertices and the same edges, in any order and any number. -/
structure SameEdges (l l' : EdgeList) : Prop where
  vertexCount : l'.vertexCount = l.vertexCount
  mem_iff : ∀ e, e ∈ l'.edges ↔ e ∈ l.edges

/-- Every slot of an edge holds the content of the edge. -/
def Carries {E : Type} (l : EdgeList) (slots : Array E) (content : VertexId × VertexId → E) :
    Prop :=
  ∀ (j : Nat) e, l.edges[j]? = some e → slots[j]? = some (content e)

/-- The links lead along the edges of the list to those far ends that `far` admits. -/
def Lists (l : EdgeList) (links : Array Link) (far : VertexId × VertexId → VertexId → Prop) :
    Prop :=
  ∀ link, link ∈ links ↔ ∃ e, l.edges[link.slot]? = some e ∧ far e link.far

variable {E : Type} {l : EdgeList} {links links' : Array Link} {v : VertexId} {slots : Array E}
  {content : VertexId × VertexId → E} {far far' : VertexId × VertexId → VertexId → Prop}
  {e : VertexId × VertexId} {j : Nat}

theorem Carries.getD [Inhabited E] (h : l.Carries slots content) (he : l.edges[j]? = some e) :
    slots.getD j default = content e := by
  rw [Array.getD_eq_getD_getElem?, h j e he]
  rfl

theorem Carries.lt_size (h : l.Carries slots content) (he : l.edges[j]? = some e) :
    j < slots.size :=
  (Array.getElem?_eq_some_iff.1 (h j e he)).1

theorem carries_replicate {x : E} :
    l.Carries (Array.replicate l.edges.size x) fun _ => x := by
  intro j e he
  have hj := (Array.getElem?_eq_some_iff.1 he).1
  rw [Array.getElem?_replicate, if_pos hj]

namespace Lists

theorem inOf (hv : v.toNat < l.vertexCount) :
    l.Lists (l.graph.inOf v) fun e u => e = (u, v) := by
  intro link
  rw [Adjacency.mem_inOf_ofEdges]
  simp [hv]

theorem outOf (hv : v.toNat < l.vertexCount) :
    l.Lists (l.graph.outOf v) fun e w => e = (v, w) := by
  intro link
  rw [Adjacency.mem_outOf_ofEdges]
  simp [hv]

theorem append (h : l.Lists links far) (h' : l.Lists links' far') :
    l.Lists (links ++ links') fun e u => far e u ∨ far' e u := by
  intro link
  rw [Array.mem_append, h link, h' link, ← exists_or]
  simp only [and_or_left]

theorem filter (h : l.Lists links far) (p : VertexId → Bool) :
    l.Lists (links.filter (p ·.far)) fun e u => far e u ∧ p u = true := by
  intro link
  rw [Array.mem_filter, h link]
  simp only [← and_assoc, exists_and_right]

/-- A slot is linked if its edge has a far end. -/
theorem exists_slot_iff (h : l.Lists links far) (he : l.edges[j]? = some e) :
    (∃ link ∈ links, link.slot = j) ↔ ∃ u, far e u := by
  constructor
  · intro ⟨link, hlink, hslot⟩
    obtain ⟨e', he', hfar⟩ := (h link).1 hlink
    rw [hslot, he] at he'
    cases he'
    exact ⟨link.far, hfar⟩
  · intro ⟨u, hfar⟩
    exact ⟨⟨j, u⟩, (h _).2 ⟨e, he, hfar⟩, rfl⟩

/-- What is true of a link, told by its edge. -/
theorem exists_iff (h : l.Lists links far) {P : VertexId × VertexId → VertexId → Prop}
    {Q : Link → Prop} (hiff : ∀ link e, l.edges[link.slot]? = some e → far e link.far →
      (Q link ↔ P e link.far)) :
    (∃ link ∈ links, Q link) ↔ ∃ e ∈ l.edges, ∃ u, far e u ∧ P e u := by
  constructor
  · intro ⟨link, hlink, hQ⟩
    obtain ⟨e, he, hfar⟩ := (h link).1 hlink
    exact ⟨e, Array.mem_of_getElem? he, link.far, hfar, (hiff link e he hfar).1 hQ⟩
  · intro ⟨e, hmem, u, hfar, hP⟩
    obtain ⟨j, he⟩ := Array.getElem?_of_mem hmem
    exact ⟨⟨j, u⟩, (h _).2 ⟨e, he, hfar⟩, (hiff ⟨j, u⟩ e he hfar).2 hP⟩

end Lists

theorem Carries.writeAll {V : Type} {view : View V E} {x : E} [∀ e, Decidable (∃ u, far e u)]
    (h : l.Carries view.slots content) (hlinks : l.Lists links far) :
    l.Carries (view.writeAll links x).slots fun e => if ∃ u, far e u then x else content e := by
  intro j e he
  rw [View.getElem?_writeAll (h.lt_size he), h j e he]
  simp only [hlinks.exists_slot_iff he]
  split <;> rfl

end EdgeList

/-! ## Views of the same vertex -/

/-- The views open the same vertex on the graphs of two lists, whose edges have the same content. -/
structure View.Twins {V E : Type} (l l' : EdgeList) (content : VertexId × VertexId → E)
    (view view' : View V E) : Prop where
  id : view'.id = view.id
  value : view'.value = view.value
  adjacency : view.adjacency = l.graph
  adjacency' : view'.adjacency = l'.graph
  id_lt : view.id.toNat < l.vertexCount
  carries : l.Carries view.slots content
  carries' : l'.Carries view'.slots content

namespace View.Twins

variable {V E : Type} {l l' : EdgeList} {view view' : View V E}
  {content : VertexId × VertexId → E} {far : VertexId × VertexId → VertexId → Prop}

theorem setValue (h : Twins l l' content view view') (x : V) :
    Twins l l' content (view.setValue x) (view'.setValue x) :=
  ⟨h.id, rfl, h.adjacency, h.adjacency', h.id_lt, h.carries, h.carries'⟩

theorem inLinks (h : Twins l l' content view view') (hsame : l.SameEdges l') :
    l.Lists view.inLinks (fun e u => e = (u, view.id)) ∧
      l'.Lists view'.inLinks (fun e u => e = (u, view.id)) := by
  have hid : view.id.toNat < l'.vertexCount := hsame.vertexCount.symm ▸ h.id_lt
  rw [View.inLinks, View.inLinks, h.adjacency, h.adjacency', h.id]
  exact ⟨.inOf h.id_lt, .inOf hid⟩

theorem outLinks (h : Twins l l' content view view') (hsame : l.SameEdges l') :
    l.Lists view.outLinks (fun e w => e = (view.id, w)) ∧
      l'.Lists view'.outLinks (fun e w => e = (view.id, w)) := by
  have hid : view.id.toNat < l'.vertexCount := hsame.vertexCount.symm ▸ h.id_lt
  rw [View.outLinks, View.outLinks, h.adjacency, h.adjacency', h.id]
  exact ⟨.outOf h.id_lt, .outOf hid⟩

theorem links (h : Twins l l' content view view') (hsame : l.SameEdges l') :
    l.Lists view.links (fun e u => e = (u, view.id) ∨ e = (view.id, u)) ∧
      l'.Lists view'.links (fun e u => e = (u, view.id) ∨ e = (view.id, u)) := by
  obtain ⟨hin, hin'⟩ := h.inLinks hsame
  obtain ⟨hout, hout'⟩ := h.outLinks hsame
  exact ⟨hin.append hout, hin'.append hout'⟩

variable {links links' : Array Link}

/-- Twins read the same from the same neighbors. -/
theorem exists_edge_iff [Inhabited E] (h : Twins l l' content view view') (hsame : l.SameEdges l')
    (hlinks : l.Lists links far) (hlinks' : l'.Lists links' far) {P : Edge E → Prop} :
    (∃ link ∈ links', P (view'.edgeOf link)) ↔ ∃ link ∈ links, P (view.edgeOf link) := by
  have hleft : (∃ link ∈ links, P (view.edgeOf link)) ↔
      ∃ e ∈ l.edges, ∃ u, far e u ∧ P ⟨u, content e⟩ := by
    apply hlinks.exists_iff
    intro link e he _
    rw [View.edgeOf, View.read, h.carries.getD he]
  have hright : (∃ link ∈ links', P (view'.edgeOf link)) ↔
      ∃ e ∈ l'.edges, ∃ u, far e u ∧ P ⟨u, content e⟩ := by
    apply hlinks'.exists_iff
    intro link e he _
    rw [View.edgeOf, View.read, h.carries'.getD he]
  rw [hleft, hright]
  simp only [hsame.mem_iff]

theorem writeAll (h : Twins l l' content view view') (hlinks : l.Lists links far)
    (hlinks' : l'.Lists links' far) (x : E) :
    ∃ content, Twins l l' content (view.writeAll links x) (view'.writeAll links' x) := by
  classical
  have hcarries := h.carries.writeAll hlinks (x := x)
  have hcarries' := h.carries'.writeAll hlinks' (x := x)
  rw [View.writeAll_eq] at hcarries hcarries' ⊢
  rw [View.writeAll_eq]
  exact ⟨_, h.id, h.value, h.adjacency, h.adjacency', h.id_lt, hcarries, hcarries'⟩

end View.Twins

end VertexSweep
