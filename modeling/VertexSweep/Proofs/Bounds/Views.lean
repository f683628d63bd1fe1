import VertexSweep.Graph.View
import VertexSweep.Proofs.Bounds.Topology
import VertexSweep.Relax.Basic

/-!
# Views with every access tested

What an update does to its view, with the slot of every link looked for in the array of slots
(`View.edgeOf?`, `View.write?`) and every link in the compact form of the graph. On a view of a
vertex of the graph (`View.Opens`) no look-up misses, so a loop over links does what the loop
without tests does. The loops follow the rules `mapM_eq_some` and `foldlM_eq_some`.
-/

namespace VertexSweep

/-! ## Loops that do not stop -/

section
variable {α β : Type} {xs : List α}

theorem mapM_eq_some {f? : α → Option β} {f : α → β} (h : ∀ x ∈ xs, f? x = some (f x)) :
    xs.mapM f? = some (xs.map f) := by
  induction xs with
  | nil => rfl
  | cons x xs ih =>
    rw [List.mapM_cons, h x List.mem_cons_self, ih fun y hy => h y (List.mem_cons_of_mem x hy)]
    rfl

/-- A loop with an invariant under which no step stops it. -/
theorem foldlM_eq_some {f? : β → α → Option β} {f : β → α → β} {I : β → Prop} {b : β}
    (h : ∀ x ∈ xs, ∀ b, I b → f? b x = some (f b x) ∧ I (f b x)) (hb : I b) :
    xs.foldlM f? b = some (xs.foldl f b) := by
  induction xs generalizing b with
  | nil => rfl
  | cons x xs ih =>
    obtain ⟨hstep, hkeep⟩ := h x List.mem_cons_self b hb
    rw [List.foldlM_cons, hstep]
    exact ih (fun y hy => h y (List.mem_cons_of_mem x hy)) hkeep

theorem anyM_eq_some {p? : α → Option Bool} {p : α → Bool} (h : ∀ x ∈ xs, p? x = some (p x)) :
    xs.anyM p? = some (xs.any p) := by
  induction xs with
  | nil => rfl
  | cons x xs ih =>
    have htail := ih fun y hy => h y (List.mem_cons_of_mem x hy)
    rw [List.anyM_cons, h x List.mem_cons_self, htail, List.any_cons]
    cases p x <;> rfl

theorem allM_eq_some {p? : α → Option Bool} {p : α → Bool} (h : ∀ x ∈ xs, p? x = some (p x)) :
    xs.allM p? = some (xs.all p) := by
  induction xs with
  | nil => rfl
  | cons x xs ih =>
    have htail := ih fun y hy => h y (List.mem_cons_of_mem x hy)
    rw [List.allM_cons, h x List.mem_cons_self, htail, List.all_cons]
    cases p x <;> rfl

end

namespace View

variable {V E : Type}

/-! ## Tested accesses -/

/-- The edge of a link as it reads now, if its slot is there. -/
def edgeOf? (view : View V E) (link : Link) : Option (Edge E) := do
  return ⟨link.far, ← view.slots[link.slot]?⟩

def edgesOf? (view : View V E) (links : List Link) : Option (List (Edge E)) :=
  links.mapM view.edgeOf?

/-- Writes `x` into the slot of a link, if it is there. -/
def write? (view : View V E) (link : Link) (x : E) : Option (View V E) :=
  if link.slot < view.slots.size then some (view.write link x) else none

def writeAll? (view : View V E) (links : List Link) (x : E) : Option (View V E) :=
  links.foldlM (fun view link => view.write? link x) view

/-- Writes `offer` wherever it is less than what stands there, and asks for an urgent visit of the
vertex at the other end. -/
def lower? (view : View UInt32 UInt32) (links : List Link) (offer : UInt32) :
    Option (View UInt32 UInt32 × Array Request) :=
  links.foldlM
    (fun (view, requests) link => do
      let edge ← view.edgeOf? link
      if offer < edge.value then
        return (← view.write? link offer, requests.push (.add edge.far true))
      else return (view, requests))
    (view, #[])

/-! ## Accesses to slots that are there -/

variable {view : View V E} {links : Array Link} {link : Link} {x : E}

@[simp]
theorem size_slots_write : (view.write link x).slots.size = view.slots.size :=
  Array.size_setIfInBounds

theorem write?_eq (h : link.slot < view.slots.size) :
    view.write? link x = some (view.write link x) := if_pos h

theorem edgeOf?_eq [Inhabited E] (h : link.slot < view.slots.size) :
    view.edgeOf? link = some (view.edgeOf link) := by
  simp [edgeOf?, edgeOf, read, h]

theorem edgesOf?_eq [Inhabited E] (h : ∀ link ∈ links, link.slot < view.slots.size) :
    view.edgesOf? links.toList = some (links.toList.map view.edgeOf) :=
  mapM_eq_some fun link hlink => edgeOf?_eq (h link (Array.mem_toList_iff.1 hlink))

theorem writeAll?_eq (h : ∀ link ∈ links, link.slot < view.slots.size) :
    view.writeAll? links.toList x = some (view.writeAll links x) := by
  rw [writeAll, ← Array.foldl_toList]
  apply foldlM_eq_some (I := fun view' => view'.slots.size = view.slots.size) _ rfl
  intro link hlink view' hsize
  have hslot : link.slot < view'.slots.size := by
    rw [hsize]
    exact h link (Array.mem_toList_iff.1 hlink)
  exact ⟨write?_eq hslot, size_slots_write.trans hsize⟩

theorem lower?_eq {view : View UInt32 UInt32} {offer : UInt32}
    (h : ∀ link ∈ links, link.slot < view.slots.size) :
    view.lower? links.toList offer = some (view.lower links offer) := by
  rw [lower, ← Array.foldl_toList]
  apply foldlM_eq_some (I := fun out => out.1.slots.size = view.slots.size) _ rfl
  rintro link hlink ⟨view', requests⟩ hsize
  have hslot : link.slot < view'.slots.size := by
    rw [show view'.slots.size = view.slots.size from hsize]
    exact h link (Array.mem_toList_iff.1 hlink)
  simp only [edgeOf?_eq hslot, write?_eq hslot, Option.bind_eq_bind, Option.bind_some, edgeOf]
  split
  · exact ⟨rfl, size_slots_write.trans hsize⟩
  · exact ⟨rfl, hsize⟩

/-! ## Views of the vertices of a graph -/

/-- The view is that of a vertex of the graph of `l`, with a slot for every edge. -/
structure Opens (view : View V E) (l : EdgeList) : Prop where
  adjacency : view.adjacency = l.graph
  lt_vertexCount : view.id.toNat < l.vertexCount
  size : view.slots.size = l.edges.size

namespace Opens

variable {l : EdgeList} {t : Topology}

theorem slot_lt_of_mem_inLinks (h : view.Opens l) (hlink : link ∈ view.inLinks) :
    link.slot < view.slots.size := by
  rw [inLinks, h.adjacency] at hlink
  rw [h.size]
  exact (Array.getElem?_eq_some_iff.1 (Adjacency.mem_inOf_ofEdges.1 hlink).2).1

theorem slot_lt_of_mem_outLinks (h : view.Opens l) (hlink : link ∈ view.outLinks) :
    link.slot < view.slots.size := by
  rw [outLinks, h.adjacency] at hlink
  rw [h.size]
  exact (Array.getElem?_eq_some_iff.1 (Adjacency.mem_outOf_ofEdges.1 hlink).2).1

theorem slot_lt_of_mem_links (h : view.Opens l) (hlink : link ∈ view.links) :
    link.slot < view.slots.size :=
  (Array.mem_append.1 hlink).elim h.slot_lt_of_mem_inLinks h.slot_lt_of_mem_outLinks

theorem setValue {y : V} (h : view.Opens l) : (view.setValue y).Opens l :=
  ⟨h.adjacency, h.lt_vertexCount, h.size⟩

theorem lt_vertexCount_graph (h : view.Opens l) : view.id.toNat < l.graph.vertexCount := by
  rw [Adjacency.vertexCount_ofEdges]
  exact h.lt_vertexCount

theorem inLinks?_eq (h : view.Opens l) (ht : t.Packs l.graph) :
    t.inLinks? view.id = some view.inLinks.toList := by
  rw [ht.inLinks?_eq h.lt_vertexCount_graph, inLinks, h.adjacency]

theorem outLinks?_eq (h : view.Opens l) (ht : t.Packs l.graph) :
    t.outLinks? view.id = some view.outLinks.toList := by
  rw [ht.outLinks?_eq h.lt_vertexCount_graph, outLinks, h.adjacency]

theorem links?_eq (h : view.Opens l) (ht : t.Packs l.graph) :
    t.links? view.id = some view.links.toList := by
  rw [ht.links?_eq h.lt_vertexCount_graph, links, inLinks, outLinks, h.adjacency]

theorem laterLinks?_eq (h : view.Opens l) (ht : t.Packs l.graph) :
    t.laterLinks? view.id = some view.outLinks.toList := by
  rw [ht.laterLinks?_eq h.lt_vertexCount_graph, outLinks, h.adjacency]

end Opens

end View

end VertexSweep
