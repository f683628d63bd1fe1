import VertexSweep.Proofs.Bounds.Checked
import VertexSweep.Proofs.Relax.Propagation
import VertexSweep.Relax.Coloring
import VertexSweep.Relax.Components
import VertexSweep.Relax.ShortestPath

/-!
# Relaxations with every access tested

The turns of the three relaxations on the compact form of the graph. Each takes its links by their
numbers, as in-edges, as out-edges or among all incident edges, and reads and writes their slots
under a test. On a view of a vertex of the graph it does what the turn without tests does, so the
checked relaxation follows the relaxation, and ends as it does
(`Relaxation.checkedSolve_eq`).
-/

namespace VertexSweep

namespace View

variable {l : EdgeList} {view : View UInt32 UInt32} {links : Array Link} {offer : UInt32}

theorem size_slots_lower : (view.lower links offer).1.slots.size = view.slots.size :=
  lower_lowers.size

theorem size_slots_adopt {best : UInt32} :
    (if best < view.value then view.setValue best else view).slots.size = view.slots.size := by
  split <;> rfl

/-- Adopting a number leaves the view that of its vertex. -/
theorem Opens.adopt (h : view.Opens l) (best : UInt32) :
    (if best < view.value then view.setValue best else view).Opens l := by
  split
  · exact h.setValue
  · exact h

end View

/-- A relaxation is followed if its turns are, on views of the vertices of the graph. -/
theorem CheckedProgram.Follows.of_turns {l : EdgeList}
    {turn? : Context → View UInt32 UInt32 → Option (Update Unit UInt32 UInt32)}
    {turn : Context → View UInt32 UInt32 → Update Unit UInt32 UInt32}
    (h : ∀ ctx {view}, view.Opens l → turn? ctx view = some (turn ctx view))
    (hsize : ∀ ctx view, (turn ctx view).view.slots.size = view.slots.size) :
    Follows { update := fun ctx _ => turn? ctx } { update := fun ctx _ => turn ctx } l
      fun _ => True where
  update _ hview := h _ hview
  size _ hview := (hsize _ _).trans hview.size
  fits_update _ _ := trivial
  before := rfl
  fits_before _ := trivial
  after _ := rfl
  fits_after _ := trivial
  beforeWindow _ := rfl
  afterWindow _ := rfl

/-- Carries out a checked relaxation on the graph of an edge list. -/
def Relaxation.checkedSolve (program : Topology → CheckedProgram Unit UInt32 UInt32) (l : EdgeList)
    (settings : Settings) : Except (Trap Fault) Relaxed := do
  let run ← CheckedProgram.runOn program settings (fun _ => ()) l
  return ⟨run.report, run.graph.values⟩

/-- A checked relaxation settles what the relaxation settles that it follows. -/
theorem Relaxation.checkedSolve_eq {l : EdgeList}
    {checked : Topology → CheckedProgram Unit UInt32 UInt32} {program : Relaxation}
    (h : ∀ {t}, t.Packs l.graph → (checked t).Follows program l fun _ => True) (hl : l.Built)
    (hn : l.vertexCount ≤ maxWord) (settings : Settings) :
    checkedSolve checked l settings = (program.solve l settings).mapError .failed := by
  have hrun := CheckedProgram.Follows.runOn_eq (fun _ => ()) h hl hn trivial settings
  rw [checkedSolve, hrun]
  unfold solve
  cases program.runOn settings () l <;> rfl

/-! ## Shortest paths -/

namespace ShortestPath

def checkedStart (t : Topology) (source : VertexId) (view : View UInt32 UInt32) :
    Option (Update Unit UInt32 UInt32) := do
  let view ← view.writeAll? (← t.outLinks? view.id) unreached
  if view.id = source then
    return {
      state := ()
      view := view.setValue 1
      requests := #[.add source false]
      verdict := .ok .quiet }
  else
    return { state := (), view := view.setValue unreached, verdict := .ok .quiet }

def checkedRelax (t : Topology) (view : View UInt32 UInt32) :
    Option (Update Unit UInt32 UInt32) := do
  let best := leastOf view.value ((← view.edgesOf? (← t.inLinks? view.id)).map (·.value))
  let improved := best < view.value
  let view := if improved then view.setValue best else view
  if best = unreached then
    return { state := (), view, verdict := .ok (.ofChanged improved) }
  else
    let (view, requests) ← view.lower? (← t.outLinks? view.id) (oneFurther best)
    return {
      state := ()
      view
      requests
      verdict := .ok (.ofChanged (improved || !requests.isEmpty)) }

def checkedProgram (source : VertexId) (t : Topology) : CheckedProgram Unit UInt32 UInt32 where
  update ctx _ view := if ctx.iteration = 0 then checkedStart t source view else checkedRelax t view

/-- Distances from `source`. -/
def checkedSolve (l : EdgeList) (source : VertexId) (settings : Settings) :
    Except (Trap Fault) Relaxed :=
  if l.vertexCount ≤ source.toNat then
    .error (.failed (.graph (.sourceOutside source l.vertexCount)))
  else
    Relaxation.checkedSolve (checkedProgram source) l settings

variable {l : EdgeList} {t : Topology} {view : View UInt32 UInt32} {source : VertexId}

theorem checkedStart_eq (ht : t.Packs l.graph) (hview : view.Opens l) :
    checkedStart t source view = some (start source view) := by
  simp only [checkedStart, start, hview.outLinks?_eq ht,
    View.writeAll?_eq fun link => hview.slot_lt_of_mem_outLinks, Option.bind_eq_bind,
    Option.bind_some]
  split <;> rfl

theorem checkedRelax_eq (ht : t.Packs l.graph) (hview : view.Opens l) :
    checkedRelax t view = some (relax view) := by
  have hedges : view.edgesOf? view.inLinks.toList = some view.inEdges :=
    View.edgesOf?_eq fun link => hview.slot_lt_of_mem_inLinks
  simp only [checkedRelax, relax, hview.inLinks?_eq ht, hedges, Option.bind_eq_bind,
    Option.bind_some]
  -- Adopted or not, what matters of the view from here on is that it opens its vertex.
  have hadopted := hview.adopt (leastOf view.value (view.inEdges.map (·.value)))
  generalize (if leastOf view.value (view.inEdges.map (·.value)) < view.value then _ else view) =
    adopted at hadopted
  split
  · rfl
  · rw [hadopted.outLinks?_eq ht, Option.bind_some,
      View.lower?_eq fun link => hadopted.slot_lt_of_mem_outLinks]
    rfl

theorem size_slots_start : (start source view).view.slots.size = view.slots.size := by
  unfold start
  simp only
  split <;> exact View.size_slots_writeAll

theorem size_slots_relax : (relax view).view.slots.size = view.slots.size := by
  unfold relax
  simp only
  split
  · exact View.size_slots_adopt
  · exact View.size_slots_lower.trans View.size_slots_adopt

theorem follows (ht : t.Packs l.graph) (source : VertexId) :
    (checkedProgram source t).Follows (program source) l fun _ => True := by
  refine .of_turns (fun ctx view hview => ?_) fun ctx view => ?_
  · rw [checkedStart_eq ht hview, checkedRelax_eq ht hview]
    split <;> rfl
  · split
    · exact size_slots_start
    · exact size_slots_relax

theorem checkedSolve_eq (hl : l.Built) (hn : l.vertexCount ≤ maxWord) (source : VertexId)
    (settings : Settings) :
    checkedSolve l source settings = (solve l source settings).mapError .failed := by
  unfold checkedSolve solve
  split
  · rfl
  · exact Relaxation.checkedSolve_eq (fun ht => follows ht source) hl hn settings

end ShortestPath

/-! ## Components -/

namespace Components

def checkedStart (t : Topology) (view : View UInt32 UInt32) :
    Option (Update Unit UInt32 UInt32) := do
  let view := view.setValue view.id
  return {
    state := ()
    view := ← view.writeAll? (← t.outLinks? view.id) view.id
    requests := #[.add view.id false]
    verdict := .ok .quiet }

/-- The edges on which a vertex reads. -/
def sources? (direction : Direction) (t : Topology) (v : VertexId) : Option (List Link) :=
  match direction with
  | .undirected => do return (← t.inLinks? v) ++ (← t.outLinks? v)
  | .directed => t.inLinks? v

/-- The edges on which a vertex writes, by their numbers among all incident edges. -/
def targets? (direction : Direction) (t : Topology) (v : VertexId) : Option (List Link) :=
  match direction with
  | .undirected => t.links? v
  | .directed => t.laterLinks? v

def checkedSpread (direction : Direction) (t : Topology) (view : View UInt32 UInt32) :
    Option (Update Unit UInt32 UInt32) := do
  let seen ← view.edgesOf? (← sources? direction t view.id)
  let least := leastOf view.value (seen.map (·.value))
  let improved := least < view.value
  let view := if improved then view.setValue least else view
  let (view, requests) ← view.lower? (← targets? direction t view.id) least
  return {
    state := ()
    view
    requests
    verdict := .ok (.ofChanged (improved || !requests.isEmpty)) }

def checkedProgram (direction : Direction) (t : Topology) : CheckedProgram Unit UInt32 UInt32 where
  update ctx _ view :=
    if ctx.iteration = 0 then checkedStart t view else checkedSpread direction t view

/-- Labels the components. -/
def checkedSolve (l : EdgeList) (direction : Direction) (settings : Settings) :
    Except (Trap Fault) Relaxed :=
  Relaxation.checkedSolve (checkedProgram direction) l settings

variable {l : EdgeList} {t : Topology} {view : View UInt32 UInt32} {direction : Direction}

theorem checkedStart_eq (ht : t.Packs l.graph) (hview : view.Opens l) :
    checkedStart t view = some (start view) := by
  have hset : (view.setValue view.id).Opens l := hview.setValue
  simp only [checkedStart, hset.outLinks?_eq ht,
    View.writeAll?_eq fun link => hset.slot_lt_of_mem_outLinks, Option.bind_eq_bind,
    Option.bind_some]
  rfl

theorem sources?_eq (ht : t.Packs l.graph) (hview : view.Opens l) :
    sources? direction t view.id = some (sources direction view).toList := by
  cases direction with
  | undirected =>
    simp only [sources?, hview.inLinks?_eq ht, hview.outLinks?_eq ht, Option.bind_eq_bind,
      Option.bind_some, sources, View.links, Array.toList_append]
    rfl
  | directed => exact hview.inLinks?_eq ht

theorem targets?_eq (ht : t.Packs l.graph) (hview : view.Opens l) :
    targets? direction t view.id = some (targets direction view).toList := by
  cases direction with
  | undirected => exact hview.links?_eq ht
  | directed => exact hview.laterLinks?_eq ht

theorem slot_lt_of_mem_sources (hview : view.Opens l) {link : Link}
    (hlink : link ∈ sources direction view) : link.slot < view.slots.size := by
  cases direction with
  | undirected => exact hview.slot_lt_of_mem_links hlink
  | directed => exact hview.slot_lt_of_mem_inLinks hlink

theorem slot_lt_of_mem_targets (hview : view.Opens l) {link : Link}
    (hlink : link ∈ targets direction view) : link.slot < view.slots.size := by
  cases direction with
  | undirected => exact hview.slot_lt_of_mem_links hlink
  | directed => exact hview.slot_lt_of_mem_outLinks hlink

theorem checkedSpread_eq (ht : t.Packs l.graph) (hview : view.Opens l) :
    checkedSpread direction t view = some (spread direction view) := by
  have hseen : view.edgesOf? (sources direction view).toList =
      some ((sources direction view).toList.map view.edgeOf) :=
    View.edgesOf?_eq fun link => slot_lt_of_mem_sources hview
  simp only [checkedSpread, spread, sources?_eq ht hview, hseen, Option.bind_eq_bind,
    Option.bind_some, List.map_map]
  have hvalues : (sources direction view).toList.map ((·.value) ∘ view.edgeOf) =
      (sources direction view).toList.map view.read := rfl
  rw [hvalues]
  have hadopted := hview.adopt
    (leastOf view.value ((sources direction view).toList.map view.read))
  generalize (if leastOf view.value ((sources direction view).toList.map view.read) < view.value
    then _ else view) = adopted at hadopted
  rw [targets?_eq ht hadopted, Option.bind_some,
    View.lower?_eq fun link => slot_lt_of_mem_targets hadopted]
  rfl

theorem follows (ht : t.Packs l.graph) (direction : Direction) :
    (checkedProgram direction t).Follows (program direction) l fun _ => True := by
  refine .of_turns (fun ctx view hview => ?_) fun ctx view => ?_
  · rw [checkedStart_eq ht hview, checkedSpread_eq ht hview]
    split <;> rfl
  · split
    · exact View.size_slots_writeAll
    · exact View.size_slots_lower.trans View.size_slots_adopt

theorem checkedSolve_eq (hl : l.Built) (hn : l.vertexCount ≤ maxWord) (direction : Direction)
    (settings : Settings) :
    checkedSolve l direction settings = (solve l direction settings).mapError .failed :=
  Relaxation.checkedSolve_eq (fun ht => follows ht direction) hl hn settings

end Components

/-! ## Coloring -/

namespace Coloring

/-- Looks at the edge of a link and, if it comes from a vertex with a lower id, writes the color
onto it and adds it to the list. -/
def publishOn? (color : UInt32) (out : View UInt32 UInt32 × List Link) (link : Link) :
    Option (View UInt32 UInt32 × List Link) := do
  let edge ← out.1.edgeOf? link
  if edge.far < out.1.id then return (← out.1.write? link color, out.2 ++ [link]) else return out

/-- Writes the color onto the in-edges from vertices with a lower id, and lists these. -/
def publish? (t : Topology) (view : View UInt32 UInt32) (color : UInt32) :
    Option (View UInt32 UInt32 × List Link) := do
  (← t.inLinks? view.id).foldlM (publishOn? color) (view, [])

def checkedStart (t : Topology) (view : View UInt32 UInt32) :
    Option (Update Unit UInt32 UInt32) := do
  let (published, _) ← publish? t (view.setValue 0) 0
  return {
    state := ()
    view := published
    requests := #[.add view.id false]
    verdict := .ok .quiet }

def checkedRecolor (t : Topology) (view : View UInt32 UInt32) :
    Option (Update Unit UInt32 UInt32) := do
  let edges ← view.edgesOf? (← t.outLinks? view.id)
  let color := firstFree ((edges.filter (view.id < ·.far)).map (·.value))
  if color = view.value then
    return { state := (), view, verdict := .ok .quiet }
  else
    let (view, published) ← publish? t (view.setValue color) color
    return {
      state := ()
      view
      requests := (published.map (Request.add ·.far false)).toArray
      verdict := .ok .changed }

def checkedProgram (t : Topology) : CheckedProgram Unit UInt32 UInt32 where
  update ctx _ view := if ctx.iteration = 0 then checkedStart t view else checkedRecolor t view

/-- Colors the graph. -/
def checkedSolve (l : EdgeList) (settings : Settings) : Except (Trap Fault) Relaxed :=
  Relaxation.checkedSolve checkedProgram l settings

variable {l : EdgeList} {t : Topology} {view : View UInt32 UInt32} {color : UInt32}

theorem foldlM_publishOn? {links : List Link} (view : View UInt32 UInt32) (published : List Link)
    (h : ∀ link ∈ links, link.slot < view.slots.size) :
    links.foldlM (publishOn? color) (view, published) =
      some ((links.filter (·.far < view.id)).foldl (fun view link => view.write link color) view,
        published ++ links.filter (·.far < view.id)) := by
  induction links generalizing view published with
  | nil => simp
  | cons link links ih =>
    have hslot := h link List.mem_cons_self
    have hrest := fun other hmem => h other (List.mem_cons_of_mem link hmem)
    rw [List.foldlM_cons]
    simp only [publishOn?, View.edgeOf?_eq hslot, View.write?_eq hslot, Option.bind_eq_bind,
      Option.bind_some, View.edgeOf]
    by_cases hlt : link.far < view.id
    · have hwritten := ih (view.write link color) (published ++ [link]) fun other hmem => by
        rw [View.size_slots_write]
        exact hrest other hmem
      have hid : (view.write link color).id = view.id := rfl
      rw [hid, List.append_assoc] at hwritten
      rw [if_pos hlt, List.filter_cons_of_pos (by simpa using hlt), List.foldl_cons]
      exact hwritten
    · rw [if_neg hlt, List.filter_cons_of_neg (by simpa using hlt)]
      exact ih view published hrest

theorem publish?_eq (ht : t.Packs l.graph) (hview : view.Opens l) : publish? t view color =
    some (view.writeAll (lowerLinks view) color, (lowerLinks view).toList) := by
  have hlinks : ∀ link ∈ view.inLinks.toList, link.slot < view.slots.size :=
    fun link hlink => hview.slot_lt_of_mem_inLinks (Array.mem_toList_iff.1 hlink)
  simp only [publish?, hview.inLinks?_eq ht, Option.bind_eq_bind, Option.bind_some,
    foldlM_publishOn? view [] hlinks, List.nil_append]
  rw [View.writeAll, ← Array.foldl_toList, lowerLinks, Array.toList_filter]

theorem checkedStart_eq (ht : t.Packs l.graph) (hview : view.Opens l) :
    checkedStart t view = some (start view) := by
  have hset : (view.setValue 0).Opens l := hview.setValue
  simp only [checkedStart, publish?_eq ht hset, Option.bind_eq_bind, Option.bind_some]
  rfl

theorem checkedRecolor_eq (ht : t.Packs l.graph) (hview : view.Opens l) :
    checkedRecolor t view = some (recolor view) := by
  have hedges : view.edgesOf? view.outLinks.toList = some view.outEdges :=
    View.edgesOf?_eq fun link => hview.slot_lt_of_mem_outLinks
  simp only [checkedRecolor, recolor, hview.outLinks?_eq ht, hedges, Option.bind_eq_bind,
    Option.bind_some]
  split
  · rfl
  · have hlinks : lowerLinks (view.setValue
        (firstFree ((view.outEdges.filter (view.id < ·.far)).map (·.value)))) =
      lowerLinks view := rfl
    simp only [publish?_eq ht hview.setValue, Option.bind_some, hlinks, ← Array.toList_map,
      Array.toArray_toList]
    rfl

theorem follows (ht : t.Packs l.graph) : (checkedProgram t).Follows program l fun _ => True := by
  refine .of_turns (fun ctx view hview => ?_) fun ctx view => ?_
  · rw [checkedStart_eq ht hview, checkedRecolor_eq ht hview]
    split <;> rfl
  · split
    · exact View.size_slots_writeAll
    · unfold recolor
      simp only
      split
      · rfl
      · exact View.size_slots_writeAll

theorem checkedSolve_eq (hl : l.Built) (hn : l.vertexCount ≤ maxWord) (settings : Settings) :
    checkedSolve l settings = (solve l settings).mapError .failed :=
  Relaxation.checkedSolve_eq follows hl hn settings

end Coloring

end VertexSweep
