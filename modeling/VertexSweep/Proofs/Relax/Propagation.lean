import VertexSweep.Proofs.Relax.Law
import VertexSweep.Relax.Components

/-!
# Propagation of least numbers

Shortest paths and components are settled by the same kind of turn: a vertex adopts the least number
that it reads and lowers the slots that it writes to what it offers (`propagate`). A `Propagation`
names the numbers that a vertex starts with, what it offers, and which numbers fit a vertex. Numbers
that fit are passed on as numbers that fit (`Propagation.Sound`), and a vertex is stable when
nothing that it reads is less than its own number and nothing that it writes is more than its offer
(`Propagation.Stable`). `Propagation.law` shows that this makes a law of relaxation.
-/

namespace VertexSweep

/-! ## The least of several numbers -/

section
variable {start c : UInt32} {xs : List UInt32}

theorem leastOf_le_start : leastOf start xs ≤ start := by
  induction xs generalizing start with
  | nil => exact UInt32.le_refl start
  | cons b xs ih =>
    show leastOf (if b < start then b else start) xs ≤ start
    refine UInt32.le_trans ih ?_
    split
    · exact UInt32.le_of_lt ‹_›
    · exact UInt32.le_refl start

theorem leastOf_le_of_mem (h : c ∈ xs) : leastOf start xs ≤ c := by
  induction xs generalizing start with
  | nil => cases h
  | cons b xs ih =>
    show leastOf (if b < start then b else start) xs ≤ c
    rcases List.mem_cons.1 h with rfl | htail
    · refine UInt32.le_trans leastOf_le_start ?_
      split
      · exact UInt32.le_refl c
      · exact UInt32.not_lt.1 ‹_›
    · exact ih htail

theorem leastOf_eq_or_mem : leastOf start xs = start ∨ leastOf start xs ∈ xs := by
  induction xs generalizing start with
  | nil => exact .inl rfl
  | cons b xs ih =>
    show leastOf (if b < start then b else start) xs = start ∨
      leastOf (if b < start then b else start) xs ∈ b :: xs
    rcases @ih (if b < start then b else start) with heq | hmem
    · rw [heq]
      split
      · exact .inr List.mem_cons_self
      · exact .inl rfl
    · exact .inr (List.mem_cons_of_mem _ hmem)

end

/-! ## Lowering slots -/

namespace View

variable {offer : UInt32} {view : View UInt32 UInt32} {l : Link} {links links' : List Link}
  {a b c : View UInt32 UInt32 × Array Request}

/-- `b` comes from `a` by lowering to `offer` those slots of the links that hold more: the far end
of a link to such a slot is requested, and no others are. -/
structure Lowers (offer : UInt32) (links : List Link) (a b : View UInt32 UInt32 × Array Request) :
    Prop where
  same : b.1 = { a.1 with slots := b.1.slots }
  size : b.1.slots.size = a.1.slots.size
  le_offer : ∀ l ∈ links, b.1.read l ≤ offer
  slot : ∀ j, b.1.slots.getD j default = a.1.slots.getD j default ∨
    b.1.slots.getD j default = offer ∧ offer < a.1.slots.getD j default ∧
      ∃ l ∈ links, l.slot = j ∧ .add l.far true ∈ b.2
  keeps : ∀ r ∈ a.2, r ∈ b.2
  asked : ∀ r ∈ b.2, r ∈ a.2 ∨
    ∃ l ∈ links, r = .add l.far true ∧ offer < a.1.slots.getD l.slot default

namespace Lowers

theorem value (h : Lowers offer links a b) : b.1.value = a.1.value := by
  rw [h.same]

theorem nil : Lowers offer [] a a :=
  ⟨rfl, rfl, nofun, fun _ => .inl rfl, fun _ hr => hr, fun _ => .inl⟩

theorem append (h : Lowers offer links a b) (h' : Lowers offer links' b c) :
    Lowers offer (links ++ links') a c where
  same := by
    rw [h'.same, h.same]
  size := h'.size.trans h.size
  le_offer l hl := by
    rcases List.mem_append.1 hl with hl | hl
    · rcases h'.slot l.slot with hsame | ⟨hoffer, -⟩
      · exact UInt32.le_trans (UInt32.le_of_eq hsame) (h.le_offer l hl)
      · exact UInt32.le_of_eq hoffer
    · exact h'.le_offer l hl
  slot j := by
    rcases h'.slot j with hsame | ⟨hoffer, hlt, l, hl, hslot, hrequest⟩
    · rw [hsame]
      refine (h.slot j).imp_right fun ⟨hoffer, hlt, l, hl, hslot, hrequest⟩ => ?_
      exact ⟨hoffer, hlt, l, List.mem_append_left _ hl, hslot, h'.keeps _ hrequest⟩
    · refine .inr ⟨hoffer, ?_, l, List.mem_append_right _ hl, hslot, hrequest⟩
      rcases h.slot j with hbefore | ⟨-, hbefore, -⟩
      · rwa [hbefore] at hlt
      · exact hbefore
  keeps r hr := h'.keeps r (h.keeps r hr)
  asked r hr := by
    rcases h'.asked r hr with hbefore | ⟨l, hl, heq, hlt⟩
    · exact (h.asked r hbefore).imp_right fun ⟨l, hl, hrest⟩ =>
        ⟨l, List.mem_append_left _ hl, hrest⟩
    · refine .inr ⟨l, List.mem_append_right _ hl, heq, ?_⟩
      rcases h.slot l.slot with hsame | ⟨-, hmore, -⟩
      · rwa [hsame] at hlt
      · exact hmore

theorem single : Lowers offer [l] a
    (if offer < a.1.read l then (a.1.write l offer, a.2.push (.add l.far true)) else a) := by
  by_cases hlt : offer < a.1.read l
  · -- A slot that does not exist reads as zero, which is not more than anything.
    have hslot : l.slot < a.1.slots.size := by
      refine Nat.lt_of_not_le fun hle => ?_
      have hzero : a.1.read l = 0 := by
        rw [View.read, Array.getD_eq_getD_getElem?, Array.getElem?_eq_none hle]
        rfl
      rw [hzero] at hlt
      exact absurd hlt (UInt32.not_lt.2 (UInt32.zero_le))
    have hself : (a.1.write l offer).slots.getD l.slot default = offer := by
      simp [View.write, hslot]
    rw [if_pos hlt]
    refine ⟨rfl, Array.size_setIfInBounds, fun l' hl' => ?_, fun j => ?_, fun r hr => ?_,
      fun r hr => ?_⟩
    · obtain rfl := List.mem_singleton.1 hl'
      exact UInt32.le_of_eq hself
    · by_cases hj : l.slot = j
      · subst hj
        exact .inr ⟨hself, hlt, l, List.mem_singleton_self l, rfl, Array.mem_push_self⟩
      · exact .inl (by simp [View.write, hj])
    · exact Array.mem_push_of_mem _ hr
    · exact (Array.mem_push.1 hr).imp_right fun heq => ⟨l, List.mem_singleton_self l, heq, hlt⟩
  · rw [if_neg hlt]
    refine ⟨rfl, rfl, fun l' hl' => ?_, fun _ => .inl rfl, fun _ hr => hr, fun _ => .inl⟩
    obtain rfl := List.mem_singleton.1 hl'
    exact UInt32.not_lt.1 hlt

end Lowers

/-- What `lower` makes of a view. -/
theorem lower_lowers {links : Array Link} :
    Lowers offer links.toList (view, #[]) (view.lower links offer) := by
  rw [lower, ← Array.foldl_toList]
  generalize links.toList = links
  generalize (view, (#[] : Array Request)) = a
  induction links generalizing a with
  | nil => exact .nil
  | cons l links ih => exact Lowers.single.append (ih _)

end View

/-! ## Who reads and who writes a slot -/

namespace Components.Direction

/-- The vertex reads the slot of the edge. -/
def Reads : Direction → VertexId × VertexId → VertexId → Prop
  | undirected, e, v => v = e.1 ∨ v = e.2
  | directed, e, v => v = e.2

/-- The vertex writes the slot of the edge. -/
def Writes : Direction → VertexId × VertexId → VertexId → Prop
  | undirected, e, v => v = e.1 ∨ v = e.2
  | directed, e, v => v = e.1

variable {direction : Direction} {l : EdgeList} {view : View UInt32 UInt32} {link : Link}
  {x : Numbers} {e : VertexId × VertexId} {j : Nat}

theorem exists_mem_inLinks (h : view.Shows l.graph x) (he : l.edges[j]? = some e)
    (hid : view.id = e.2) : ∃ link ∈ view.inLinks, link.slot = j := by
  refine ⟨⟨j, e.1⟩, ?_, rfl⟩
  rw [View.inLinks, h.adjacency, Adjacency.mem_inOf_ofEdges]
  exact ⟨h.id_lt, by rw [he, hid]⟩

theorem exists_mem_outLinks (h : view.Shows l.graph x) (he : l.edges[j]? = some e)
    (hid : view.id = e.1) : ∃ link ∈ view.outLinks, link.slot = j := by
  refine ⟨⟨j, e.2⟩, ?_, rfl⟩
  rw [View.outLinks, h.adjacency, Adjacency.mem_outOf_ofEdges]
  exact ⟨h.id_lt, by rw [he, hid]⟩

theorem of_mem_inLinks (h : view.Shows l.graph x) (hlink : link ∈ view.inLinks) :
    l.edges[link.slot]? = some (link.far, view.id) := by
  rw [View.inLinks, h.adjacency] at hlink
  exact (Adjacency.mem_inOf_ofEdges.1 hlink).2

theorem of_mem_outLinks (h : view.Shows l.graph x) (hlink : link ∈ view.outLinks) :
    l.edges[link.slot]? = some (view.id, link.far) := by
  rw [View.outLinks, h.adjacency] at hlink
  exact (Adjacency.mem_outOf_ofEdges.1 hlink).2

theorem exists_mem_sources (h : view.Shows l.graph x) (he : l.edges[j]? = some e)
    (hreads : direction.Reads e view.id) : ∃ link ∈ sources direction view, link.slot = j := by
  cases direction with
  | directed => exact exists_mem_inLinks h he hreads
  | undirected =>
    rcases hreads with hid | hid
    · obtain ⟨link, hlink, hslot⟩ := exists_mem_outLinks h he hid
      exact ⟨link, Array.mem_append_right _ hlink, hslot⟩
    · obtain ⟨link, hlink, hslot⟩ := exists_mem_inLinks h he hid
      exact ⟨link, Array.mem_append_left _ hlink, hslot⟩

theorem exists_mem_targets (h : view.Shows l.graph x) (he : l.edges[j]? = some e)
    (hwrites : direction.Writes e view.id) : ∃ link ∈ targets direction view, link.slot = j := by
  cases direction with
  | directed => exact exists_mem_outLinks h he hwrites
  | undirected =>
    rcases hwrites with hid | hid
    · obtain ⟨link, hlink, hslot⟩ := exists_mem_outLinks h he hid
      exact ⟨link, Array.mem_append_right _ hlink, hslot⟩
    · obtain ⟨link, hlink, hslot⟩ := exists_mem_inLinks h he hid
      exact ⟨link, Array.mem_append_left _ hlink, hslot⟩

theorem reads_of_mem_sources (h : view.Shows l.graph x) (hlink : link ∈ sources direction view) :
    ∃ e, l.edges[link.slot]? = some e ∧ direction.Reads e view.id := by
  cases direction with
  | directed => exact ⟨_, of_mem_inLinks h hlink, rfl⟩
  | undirected =>
    rcases Array.mem_append.1 hlink with hlink | hlink
    · exact ⟨_, of_mem_inLinks h hlink, .inr rfl⟩
    · exact ⟨_, of_mem_outLinks h hlink, .inl rfl⟩

/-- Whoever reads a slot that the vertex writes is the vertex itself or the far end of the link. -/
theorem writes_of_mem_targets (h : view.Shows l.graph x) (hlink : link ∈ targets direction view) :
    ∃ e, l.edges[link.slot]? = some e ∧ direction.Writes e view.id ∧
      ∀ w, direction.Reads e w → w = view.id ∨ w = link.far := by
  cases direction with
  | directed => exact ⟨_, of_mem_outLinks h hlink, rfl, fun w hw => .inr hw⟩
  | undirected =>
    rcases Array.mem_append.1 hlink with hlink | hlink
    · exact ⟨_, of_mem_inLinks h hlink, .inr rfl, fun w hw => hw.symm⟩
    · exact ⟨_, of_mem_outLinks h hlink, .inl rfl, fun w hw => hw⟩

end Components.Direction

/-! ## Turns that propagate -/

open Components

/-- The least of the number of a vertex and those that it reads. -/
def leastAround (direction : Direction) (view : View UInt32 UInt32) : UInt32 :=
  leastOf view.value ((sources direction view).toList.map view.read)

/-- A turn that adopts the least number around and lowers the slots that hold more than the
offer. -/
def propagate (direction : Direction) (offer : UInt32 → UInt32) (view : View UInt32 UInt32) :
    Update Unit UInt32 UInt32 :=
  let least := leastAround direction view
  let improved := least < view.value
  let view := if improved then view.setValue least else view
  let (view, requests) := view.lower (targets direction view) (offer least)
  { state := (), view, requests, verdict := .ok (.ofChanged (improved || !requests.isEmpty)) }

/-- The data of a propagation along the edges of `l`. -/
structure Propagation (l : EdgeList) where
  direction : Direction
  /-- The number with which a vertex starts. -/
  first : VertexId → UInt32
  /-- The number that it puts on its out-edges first. -/
  offered : VertexId → UInt32
  /-- What it offers when it has a number. -/
  offer : UInt32 → UInt32
  /-- The numbers that may come to stand at a vertex. -/
  Fits : VertexId → UInt32 → Prop
  le_offer : ∀ c, c ≤ offer c
  fits_first : ∀ v, Fits v (first v)
  fits_offered : ∀ {e v}, e ∈ l.edges → direction.Reads e v → Fits v (offered e.1)
  fits_offer : ∀ {e u v c}, e ∈ l.edges → direction.Writes e u → direction.Reads e v →
    Fits u c → Fits v (offer c)

namespace Propagation

variable {l : EdgeList} {P : Propagation l} {k : Nat} {x : Numbers} {u v w : VertexId}
  {view : View UInt32 UInt32} {e : VertexId × VertexId} {j : Nat}

/-- The first turns of the vertices below `k` are done. -/
def Started (P : Propagation l) (k : Nat) (x : Numbers) : Prop :=
  ∀ v : VertexId, v.toNat < k → x.value v = P.first v ∧
    ∀ j w, l.edges[j]? = some (v, w) → x.slot j = P.offered v

/-- Numbers fit where they are, and the number of a vertex does not increase. -/
structure Sound (P : Propagation l) (x : Numbers) : Prop where
  fits : ∀ {v : VertexId}, v.toNat < l.vertexCount → P.Fits v (x.value v)
  le_first : ∀ {v : VertexId}, v.toNat < l.vertexCount → x.value v ≤ P.first v
  fits_slot : ∀ {j e v}, l.edges[j]? = some e → P.direction.Reads e v → P.Fits v (x.slot j)

/-- There is nothing less to read than the number of the vertex, and nothing more than its offer to
overwrite. -/
structure Stable (P : Propagation l) (x : Numbers) (v : VertexId) : Prop where
  le_slot : ∀ {j e}, l.edges[j]? = some e → P.direction.Reads e v → x.value v ≤ x.slot j
  slot_le : ∀ {j e}, l.edges[j]? = some e → P.direction.Writes e v → x.slot j ≤ P.offer (x.value v)

theorem sound_of_started (hl : l.Built) (h : P.Started l.vertexCount x) : P.Sound x where
  fits {v} hv := (h v hv).1 ▸ P.fits_first v
  le_first {v} hv := UInt32.le_of_eq (h v hv).1
  fits_slot {j e v} he hreads := by
    have hmem := Array.mem_of_getElem? he
    rw [(h e.1 (hl.lt_vertexCount hmem).1).2 j e.2 he]
    exact P.fits_offered hmem hreads

/-- Among stable vertices whoever reads a slot has at most the offer of whoever writes it. -/
theorem le_offer_of_stable (hu : P.Stable x u) (hv : P.Stable x v) (he : e ∈ l.edges)
    (hwrites : P.direction.Writes e u) (hreads : P.direction.Reads e v) :
    x.value v ≤ P.offer (x.value u) := by
  obtain ⟨j, hj⟩ := Array.getElem?_of_mem he
  exact UInt32.le_trans (hv.le_slot hj hreads) (hu.slot_le hj hwrites)

/-! ## First turns -/

/-- A first turn, with the given requests. -/
def establish (P : Propagation l) (view : View UInt32 UInt32) (requests : Array Request) :
    Update Unit UInt32 UInt32 where
  state := ()
  view := (view.setValue (P.first view.id)).writeAll view.outLinks (P.offered view.id)
  requests := requests
  verdict := .ok .quiet

private theorem slot_establish {requests : Array Request} (hview : view.Shows l.graph x)
    (he : l.edges[j]? = some e) :
    (P.establish view requests).view.slots.getD j default =
      if view.id = e.1 then P.offered view.id else x.slot j := by
  have hj : j < (view.setValue (P.first view.id)).slots.size := by
    show j < view.slots.size
    rw [hview.size]
    exact (Array.getElem?_eq_some_iff.1 he).1
  rw [← hview.slot, Array.getD_eq_getD_getElem?, Array.getD_eq_getD_getElem?]
  simp only [establish, View.getElem?_writeAll hj]
  by_cases hid : view.id = e.1
  · rw [if_pos (Direction.exists_mem_outLinks hview he hid), if_pos hid]
    rfl
  · rw [if_neg hid, if_neg]
    · rfl
    rintro ⟨link, hlink, rfl⟩
    have hedge := Direction.of_mem_outLinks hview hlink
    rw [he] at hedge
    exact hid (congrArg Prod.fst (Option.some.inj hedge)).symm

theorem Started.establish {requests : Array Request} (h : P.Started view.id.toNat x)
    (hview : view.Shows l.graph x) :
    P.Started (view.id.toNat + 1) (x.after view.id (P.establish view requests).view) := by
  have hvalue : (P.establish view requests).view.value = P.first view.id := by
    simp only [Propagation.establish, View.writeAll_eq]
    rfl
  intro v hv
  by_cases hid : v = view.id
  · subst hid
    refine ⟨Numbers.value_after_self.trans hvalue, fun j w he => ?_⟩
    rw [Numbers.slot_after, slot_establish hview he, if_pos rfl]
  · obtain ⟨hfirst, hoffered⟩ := h v (toNat_lt_of_ne hv hid)
    refine ⟨(Numbers.value_after_of_ne hid).trans hfirst, fun j w he => ?_⟩
    rw [Numbers.slot_after, slot_establish hview he, if_neg (Ne.symm hid), hoffered j w he]

theorem completes_establish {requests : Array Request} (hview : view.Shows l.graph x)
    (hkeep : ∀ first last, .remove first last ∉ requests) :
    (P.establish view requests).Completes l.graph .quiet where
  verdict := rfl
  size := View.size_slots_writeAll.trans hview.size
  keeps := hkeep

/-! ## Later turns -/

/-- What a turn that propagates leaves behind. -/
structure Propagates (P : Propagation l) (x : Numbers) (view : View UInt32 UInt32)
    (u : Update Unit UInt32 UInt32) : Prop where
  value_le : u.view.value ≤ x.value view.id
  value_eq : u.view.value = x.value view.id ∨
    ∃ j e, l.edges[j]? = some e ∧ P.direction.Reads e view.id ∧ u.view.value = x.slot j
  value_le_slot : ∀ {j e}, l.edges[j]? = some e → P.direction.Reads e view.id →
    u.view.value ≤ x.slot j
  slot_le : ∀ {j e}, l.edges[j]? = some e → P.direction.Writes e view.id →
    u.view.slots.getD j default ≤ P.offer u.view.value
  slot_eq : ∀ j, u.view.slots.getD j default = x.slot j ∨
    u.view.slots.getD j default = P.offer u.view.value ∧ P.offer u.view.value < x.slot j ∧
      ∃ e, l.edges[j]? = some e ∧ P.direction.Writes e view.id ∧ ∀ w, w ≠ view.id →
        P.direction.Reads e w → u.verdict = .ok .changed ∧ .add w true ∈ u.requests

variable {direction : Direction}

theorem leastAround_le (hview : view.Shows l.graph x) :
    leastAround direction view ≤ x.value view.id := by
  rw [← hview.value]
  exact leastOf_le_start

theorem leastAround_le_slot (hview : view.Shows l.graph x) (he : l.edges[j]? = some e)
    (hreads : direction.Reads e view.id) : leastAround direction view ≤ x.slot j := by
  obtain ⟨link, hlink, rfl⟩ := Direction.exists_mem_sources hview he hreads
  rw [← hview.slot]
  exact leastOf_le_of_mem (List.mem_map_of_mem (Array.mem_toList_iff.2 hlink))

theorem leastAround_eq_or_exists (hview : view.Shows l.graph x) :
    leastAround direction view = x.value view.id ∨ ∃ j e, l.edges[j]? = some e ∧
      direction.Reads e view.id ∧ leastAround direction view = x.slot j := by
  rw [← hview.value]
  refine leastOf_eq_or_mem.imp_right fun hmem => ?_
  obtain ⟨link, hlink, hvalue⟩ := List.mem_map.1 hmem
  obtain ⟨e, he, hreads⟩ := Direction.reads_of_mem_sources hview (Array.mem_toList_iff.1 hlink)
  exact ⟨link.slot, e, he, hreads, hvalue.symm.trans (hview.slot link.slot)⟩

/-- The view after a vertex has adopted the least number around and lowered slots to its offer, and
the requests that it makes. -/
def lowered (direction : Direction) (offer : UInt32 → UInt32) (view : View UInt32 UInt32) :
    View UInt32 UInt32 × Array Request :=
  (view.setValue (leastAround direction view)).lower (targets direction view)
    (offer (leastAround direction view))

theorem propagate_eq {offer : UInt32 → UInt32} : propagate direction offer view =
    ⟨(), (lowered direction offer view).1, (lowered direction offer view).2,
      .ok (.ofChanged (decide (leastAround direction view < view.value) ||
        !(lowered direction offer view).2.isEmpty))⟩ := by
  have hview : (if leastAround direction view < view.value
      then view.setValue (leastAround direction view) else view) =
      view.setValue (leastAround direction view) := by
    split
    · rfl
    · have heq : leastAround direction view = view.value :=
        UInt32.le_antisymm leastOf_le_start (UInt32.not_lt.1 ‹_›)
      rw [heq]
      rfl
  have htargets : ∀ c, targets direction (view.setValue c) = targets direction view := by
    cases direction <;> exact fun _ => rfl
  simp only [propagate, lowered, hview, htargets]

theorem propagates_propagate (hview : view.Shows l.graph x) :
    P.Propagates x view (propagate P.direction P.offer view) ∧
      ∃ a, (propagate P.direction P.offer view).Completes l.graph a := by
  rw [propagate_eq]
  have hlowers : View.Lowers _ _ _ (lowered P.direction P.offer view) := View.lower_lowers
  generalize lowered P.direction P.offer view = lowered at hlowers
  have hvalue : lowered.1.value = leastAround P.direction view := hlowers.value
  rw [← hvalue] at hlowers
  refine ⟨⟨?_, ?_, fun he hreads => ?_, fun he hwrites => ?_, fun j => ?_⟩, _, rfl, ?_, ?_⟩
  · rw [hvalue]
    exact leastAround_le hview
  · rw [hvalue]
    exact leastAround_eq_or_exists hview
  · rw [hvalue]
    exact leastAround_le_slot hview he hreads
  · obtain ⟨link, hlink, rfl⟩ := Direction.exists_mem_targets hview he hwrites
    exact hlowers.le_offer link (Array.mem_toList_iff.2 hlink)
  · rw [← hview.slot]
    refine (hlowers.slot j).imp_right ?_
    rintro ⟨hoffer, hlt, link, hlink, rfl, hrequest⟩
    obtain ⟨e, he, hwrites, hfar⟩ :=
      Direction.writes_of_mem_targets hview (Array.mem_toList_iff.1 hlink)
    refine ⟨hoffer, hlt, e, he, hwrites, fun w hne hreads => ?_⟩
    obtain rfl : w = link.far := (hfar w hreads).resolve_left hne
    have hbusy : lowered.2.isEmpty = false := by
      rw [Array.isEmpty_eq_false_iff]
      exact Array.ne_empty_of_mem hrequest
    exact ⟨by simp [hbusy, Activity.ofChanged], hrequest⟩
  · exact hlowers.size.trans hview.size
  · intro first last hremove
    rcases hlowers.asked _ hremove with hnone | ⟨_, _, heq, _⟩
    · simp at hnone
    · cases heq

theorem Sound.propagates {u : Update Unit UInt32 UInt32} (h : P.Sound x)
    (hview : view.Shows l.graph x) (hu : P.Propagates x view u) :
    P.Sound (x.after view.id u.view) := by
  have hfits : P.Fits view.id u.view.value := by
    rcases hu.value_eq with heq | ⟨j, e, he, hreads, heq⟩
    · exact heq ▸ h.fits hview.id_lt
    · exact heq ▸ h.fits_slot he hreads
  refine ⟨fun {v} hv => ?_, fun {v} hv => ?_, fun {j e v} he hreads => ?_⟩
  · by_cases hv' : v = view.id
    · subst hv'
      rwa [Numbers.value_after_self]
    · rw [Numbers.value_after_of_ne hv']
      exact h.fits hv
  · by_cases hv' : v = view.id
    · subst hv'
      rw [Numbers.value_after_self]
      exact UInt32.le_trans hu.value_le (h.le_first hv)
    · rw [Numbers.value_after_of_ne hv']
      exact h.le_first hv
  · rw [Numbers.slot_after]
    rcases hu.slot_eq j with hsame | ⟨hoffer, -, e', he', hwrites, -⟩
    · exact hsame ▸ h.fits_slot he hreads
    · obtain rfl : e = e' := Option.some.inj (he.symm.trans he')
      rw [hoffer]
      exact P.fits_offer (Array.mem_of_getElem? he) hwrites hreads hfits

/-- The vertex whose turn it was is stable. -/
theorem Propagates.stable_self {u : Update Unit UInt32 UInt32} (hu : P.Propagates x view u) :
    P.Stable (x.after view.id u.view) view.id := by
  refine ⟨fun {j e} he hreads => ?_, fun {j e} he hwrites => ?_⟩
  · rw [Numbers.value_after_self, Numbers.slot_after]
    rcases hu.slot_eq j with hsame | ⟨hoffer, -⟩
    · rw [hsame]
      exact hu.value_le_slot he hreads
    · rw [hoffer]
      exact P.le_offer _
  · rw [Numbers.value_after_self, Numbers.slot_after]
    exact hu.slot_le he hwrites

/-- Whoever is not requested reads nothing new, and slots that are lowered satisfy their writers
all the more. -/
theorem Propagates.stable_of_ne {u : Update Unit UInt32 UInt32} (hu : P.Propagates x view u)
    (hne : w ≠ view.id) (hw : P.Stable x w)
    (hrequest : ¬ (u.verdict = .ok .changed ∧ .add w true ∈ u.requests)) :
    P.Stable (x.after view.id u.view) w := by
  refine ⟨fun {j e} he hreads => ?_, fun {j e} he hwrites => ?_⟩
  · rw [Numbers.value_after_of_ne hne, Numbers.slot_after]
    rcases hu.slot_eq j with hsame | ⟨-, -, e', he', -, hfar⟩
    · rw [hsame]
      exact hw.le_slot he hreads
    · obtain rfl : e = e' := Option.some.inj (he.symm.trans he')
      exact absurd (hfar w hne hreads) hrequest
  · rw [Numbers.value_after_of_ne hne, Numbers.slot_after]
    refine UInt32.le_trans ?_ (hw.slot_le he hwrites)
    rcases hu.slot_eq j with hsame | ⟨hoffer, hlt, -⟩
    · exact UInt32.le_of_eq hsame
    · exact UInt32.le_of_lt (hoffer ▸ hlt)

theorem Propagates.unsettled {u : Update Unit UInt32 UInt32} (hu : P.Propagates x view u)
    (hw : ¬ P.Stable (x.after view.id u.view) w) :
    (w ≠ view.id ∧ ¬ P.Stable x w) ∨ (u.verdict = .ok .changed ∧ .add w true ∈ u.requests) := by
  have hne : w ≠ view.id := fun heq => hw (heq ▸ hu.stable_self)
  by_cases hrequest : u.verdict = .ok .changed ∧ .add w true ∈ u.requests
  · exact .inr hrequest
  · exact .inl ⟨hne, fun hstable => hw (hu.stable_of_ne hne hstable hrequest)⟩

/-! ## The law -/

/-- **Propagation is a law of relaxation**, for first turns that establish the first numbers and
request the vertex, unless it is stable anyway. -/
def law (P : Propagation l) (hl : l.Built) {start : View UInt32 UInt32 → Update Unit UInt32 UInt32}
    (hstart : ∀ view, ∃ requests, start view = P.establish view requests ∧
      (∀ first last, .remove first last ∉ requests) ∧
      ((∀ x, P.Started l.vertexCount x → P.Stable x view.id) ∨
        ∃ urgent, .add view.id urgent ∈ requests)) :
    Relaxation.Law l.graph start (propagate P.direction P.offer) where
  started := P.Started
  sound := P.Sound
  stable := P.Stable
  started_zero _ _ hv := absurd hv (Nat.not_lt_zero _)
  sound_of_started h := by
    rw [Adjacency.vertexCount_ofEdges] at h
    exact sound_of_started hl h
  starts {x view} hview h := by
    obtain ⟨requests, heq, hkeep, hnext⟩ := hstart view
    rw [heq, Adjacency.vertexCount_ofEdges]
    exact ⟨_, completes_establish hview hkeep, h.establish hview, hnext⟩
  steps {x view} hview h := by
    obtain ⟨hu, a, hcompletes⟩ := propagates_propagate (P := P) hview
    refine ⟨a, hcompletes, h.propagates hview hu, fun w _ hunstable => ?_⟩
    refine (hu.unsettled hunstable).imp_right fun ⟨hchanged, hrequest⟩ => ?_
    exact ⟨Except.ok.inj (hcompletes.verdict.symm.trans hchanged), true, hrequest⟩

end Propagation

end VertexSweep
