import Mathlib.Data.Fintype.Card
import Mathlib.Data.List.Permutation
import VertexSweep.Proofs.Relax.Law
import VertexSweep.Relax.Coloring

/-!
# Greedy colorings

A coloring is greedy if every vertex has the least color that none of its out-neighbors with a
higher id has (`Coloring.IsGreedy`). There is only one such coloring, since colors are determined
from the highest id downwards (`Coloring.IsGreedy.unique`). A vertex publishes its color on the
edges from lower ids, so the slot of an edge to a higher id holds the color of that vertex
(`Coloring.Sound`), and when every vertex has the least color that it does not read the coloring is
greedy (`isGreedy_solve`).
-/

namespace VertexSweep.Coloring

variable {l : EdgeList} {settings : Settings} {found : Relaxed} {x : Numbers}
  {view : View UInt32 UInt32} {u v w : VertexId} {e : VertexId × VertexId} {c color : UInt32}
  {j k : Nat}

/-! ## The least free color -/

theorem add_one_le_iff (h : c.toNat < maxWord) : c + 1 ≤ color ↔ c ≤ color ∧ color ≠ c := by
  rw [UInt32.le_iff_toNat_le, UInt32.le_iff_toNat_le, toNat_add_one h, ne_eq, ← UInt32.toNat_inj]
  omega

/-- In an ascending list that misses some color from `color` on, `firstGap` finds the least one. -/
theorem isLeast_firstGap {xs : List UInt32} (hsorted : xs.Pairwise (· ≤ ·))
    (hfree : ∃ c, color ≤ c ∧ c ∉ xs) :
    IsLeast {c | color ≤ c ∧ c ∉ xs} (firstGap color xs) := by
  induction xs generalizing color with
  | nil => exact ⟨⟨UInt32.le_refl _, List.not_mem_nil⟩, fun _ hc => hc.1⟩
  | cons b xs ih =>
    obtain ⟨hhead, htail⟩ := List.pairwise_cons.1 hsorted
    unfold firstGap
    split
    · rename_i hlt
      -- A color that is passed already does not matter.
      have hsame : ∀ c, (color ≤ c ∧ c ∉ b :: xs) ↔ (color ≤ c ∧ c ∉ xs) := by
        refine fun c => and_congr_right fun hle => ?_
        have hne : c ≠ b := by
          rintro rfl
          exact UInt32.not_lt.2 hle hlt
        simp [hne]
      simp only [hsame] at hfree ⊢
      exact ih htail hfree
    split
    · rename_i _ heq
      subst heq
      obtain ⟨free, hle, hmem⟩ := hfree
      -- There is a color above `b`, so `b + 1` does not wrap around.
      have hbelow : b.toNat < maxWord := by
        have hne : free.toNat ≠ b.toNat := fun heq => hmem (by simp [UInt32.toNat_inj.1 heq])
        have hword : free.toNat ≤ maxWord := Nat.le_of_lt_succ free.toNat_lt
        rw [UInt32.le_iff_toNat_le] at hle
        omega
      have hsame : ∀ c, (b ≤ c ∧ c ∉ b :: xs) ↔ (b + 1 ≤ c ∧ c ∉ xs) := by
        intro c
        rw [add_one_le_iff hbelow, List.mem_cons, not_or, and_assoc]
      have hfree : ∃ c, b ≤ c ∧ c ∉ b :: xs := ⟨free, hle, hmem⟩
      simp only [hsame] at hfree ⊢
      exact ih htail hfree
    · rename_i hnot hne
      refine ⟨⟨UInt32.le_refl _, fun hmem => ?_⟩, fun _ hc => hc.1⟩
      rcases List.mem_cons.1 hmem with heq | hmem
      · exact hne heq.symm
      · exact hne (UInt32.le_antisymm (hhead _ hmem) (UInt32.not_lt.1 hnot))

theorem isLeast_firstFree {used : List UInt32} (hfree : ∃ c, c ∉ used) :
    IsLeast {c | c ∉ used} (firstFree used) := by
  have hsorted : (used.mergeSort (· ≤ ·)).Pairwise (· ≤ ·) := by
    have htrans : ∀ a b c : UInt32, decide (a ≤ b) → decide (b ≤ c) → decide (a ≤ c) :=
      fun a b c hab hbc =>
        decide_eq_true (UInt32.le_trans (of_decide_eq_true hab) (of_decide_eq_true hbc))
    have htotal : ∀ a b : UInt32, decide (a ≤ b) || decide (b ≤ a) := by
      simpa using UInt32.le_total
    exact (List.pairwise_mergeSort htrans htotal used).imp of_decide_eq_true
  have hsame : ∀ c, c ∉ used ↔ (0 ≤ c ∧ c ∉ used.mergeSort (· ≤ ·)) := by
    intro c
    simp [List.mem_mergeSort, UInt32.zero_le]
  simp only [hsame] at hfree ⊢
  exact isLeast_firstGap hsorted hfree

/-! ## Greedy colorings -/

/-- Every vertex has the least color that none of its out-neighbors with a higher id has. -/
def IsGreedy (l : EdgeList) (color : VertexId → UInt32) : Prop :=
  ∀ v : VertexId, v.toNat < l.vertexCount →
    IsLeast {c | ∀ w, (v, w) ∈ l.edges → v < w → color w ≠ c} (color v)

/-- Colors are determined from the highest id downwards. -/
theorem IsGreedy.unique {color color' : VertexId → UInt32} (hl : l.Built) (h : IsGreedy l color)
    (h' : IsGreedy l color') (hv : v.toNat < l.vertexCount) : color v = color' v := by
  induction hd : l.vertexCount - v.toNat using Nat.strong_induction_on generalizing v with
  | _ d ih =>
    have hhigher : ∀ w, (v, w) ∈ l.edges → v < w → color w = color' w := by
      intro w hedge hlt
      have hw := (hl.lt_vertexCount hedge).2
      rw [UInt32.lt_iff_toNat_lt] at hlt
      exact ih _ (by omega) hw rfl
    have hsame : {c | ∀ w, (v, w) ∈ l.edges → v < w → color w ≠ c} =
        {c | ∀ w, (v, w) ∈ l.edges → v < w → color' w ≠ c} := by
      ext c
      refine forall_congr' fun w => forall_congr' fun hedge => forall_congr' fun hlt => ?_
      rw [hhigher w hedge hlt]
    have hleast := h v hv
    rw [hsame] at hleast
    exact UInt32.le_antisymm (hleast.2 (h' v hv).1) ((h' v hv).2 hleast.1)

/-! ## What vertices publish and read -/

/-- The view after a vertex has taken a color and published it. -/
def publish (view : View UInt32 UInt32) (c : UInt32) : View UInt32 UInt32 :=
  (view.setValue c).writeAll (lowerLinks view) c

theorem mem_lowerLinks {link : Link} (hview : view.Shows l.graph x) :
    link ∈ lowerLinks view ↔
      l.edges[link.slot]? = some (link.far, view.id) ∧ link.far < view.id := by
  simp [lowerLinks, View.inLinks, hview.adjacency, Adjacency.mem_inOf_ofEdges, hview.id_lt]

@[simp]
theorem value_publish : (publish view c).value = c := by
  simp only [publish, View.writeAll_eq]
  rfl

theorem slot_publish (hview : view.Shows l.graph x) (he : l.edges[j]? = some e) :
    (publish view c).slots.getD j default =
      if e.1 < e.2 ∧ e.2 = view.id then c else x.slot j := by
  have hj : j < (view.setValue c).slots.size := by
    show j < view.slots.size
    rw [hview.size]
    exact (Array.getElem?_eq_some_iff.1 he).1
  have hwritten : (∃ link ∈ lowerLinks view, link.slot = j) ↔ e.1 < e.2 ∧ e.2 = view.id := by
    constructor
    · rintro ⟨link, hlink, rfl⟩
      obtain ⟨hedge, hlt⟩ := (mem_lowerLinks hview).1 hlink
      obtain rfl := Option.some.inj (he.symm.trans hedge)
      exact ⟨hlt, rfl⟩
    · rintro ⟨hlt, hid⟩
      exact ⟨⟨j, e.1⟩, (mem_lowerLinks hview).2 ⟨by rw [he, ← hid], hid ▸ hlt⟩, rfl⟩
  rw [← hview.slot, Array.getD_eq_getD_getElem?, Array.getD_eq_getD_getElem?]
  simp only [publish, View.getElem?_writeAll hj, hwritten]
  split <;> rfl

theorem size_publish : (publish view c).slots.size = view.slots.size := View.size_slots_writeAll

/-- The colors that a vertex does not read on its edges to higher ids. -/
def Free (l : EdgeList) (x : Numbers) (v : VertexId) : Set UInt32 :=
  {c | ∀ j w, l.edges[j]? = some (v, w) → v < w → x.slot j ≠ c}

/-- Slots hold the colors that were published. -/
def Sound (l : EdgeList) (x : Numbers) : Prop :=
  ∀ j u w, l.edges[j]? = some (u, w) → u < w → x.slot j = x.value w

/-- The vertex has the least color that it may have. -/
def Stable (l : EdgeList) (x : Numbers) (v : VertexId) : Prop := IsLeast (Free l x v) (x.value v)

/-- The vertices below `k` have published the first color. -/
structure Started (l : EdgeList) (k : Nat) (x : Numbers) : Prop where
  value : ∀ v : VertexId, v.toNat < k → x.value v = 0
  slot : ∀ j u (w : VertexId), l.edges[j]? = some (u, w) → u < w → w.toNat < k → x.slot j = 0

theorem Sound.publish (h : Sound l x) (hview : view.Shows l.graph x) :
    Sound l (x.after view.id (publish view c)) := by
  intro j u w he hlt
  rw [Numbers.slot_after, slot_publish hview he]
  by_cases hid : w = view.id
  · subst hid
    rw [if_pos ⟨hlt, rfl⟩, Numbers.value_after_self, value_publish]
  · rw [if_neg fun hboth => hid hboth.2, Numbers.value_after_of_ne hid]
    exact h j u w he hlt

/-- A vertex reads something else only if it has an edge to the one that published. -/
theorem free_publish (hview : view.Shows l.graph x)
    (hnone : ¬ (w < view.id ∧ (w, view.id) ∈ l.edges)) :
    Free l (x.after view.id (publish view c)) w = Free l x w := by
  ext d
  refine forall_congr' fun j => forall_congr' fun w' => forall_congr' fun he =>
    forall_congr' fun hlt => ?_
  rw [Numbers.slot_after, slot_publish hview he, if_neg]
  rintro ⟨-, rfl⟩
  exact hnone ⟨hlt, Array.mem_of_getElem? he⟩

/-- There are fewer vertices than colors. -/
theorem exists_unused {n : Nat} (hn : n ≤ maxWord) (color : VertexId → UInt32) :
    ∃ c, ∀ w : VertexId, w.toNat < n → color w ≠ c := by
  by_contra hnone
  have hsurjective : Function.Surjective fun i : Fin n => (color (UInt32.ofNat i)).toFin := by
    intro c
    refine by_contra fun hmissed => hnone ⟨UInt32.ofFin c, fun w hw heq => hmissed ?_⟩
    refine ⟨⟨w.toNat, hw⟩, ?_⟩
    show (color (UInt32.ofNat w.toNat)).toFin = c
    rw [UInt32.ofNat_toNat, heq]
    rfl
  have hcard := Fintype.card_le_of_surjective _ hsurjective
  rw [Fintype.card_fin, Fintype.card_fin] at hcard
  exact absurd (Nat.le_trans hcard hn) (by decide)

theorem exists_mem_free (hl : l.Built) (hn : l.vertexCount ≤ maxWord) (h : Sound l x) :
    ∃ c, c ∈ Free l x v := by
  obtain ⟨c, hc⟩ := exists_unused hn x.value
  refine ⟨c, fun j w he hlt => ?_⟩
  rw [h j v w he hlt]
  exact hc w (hl.lt_vertexCount (Array.mem_of_getElem? he)).2

/-! ## Turns -/

theorem Started.publish (h : Started l view.id.toNat x) (hview : view.Shows l.graph x) :
    Started l (view.id.toNat + 1) (x.after view.id (publish view 0)) := by
  refine ⟨fun v hv => ?_, fun j u w he hlt hw => ?_⟩
  · by_cases hid : v = view.id
    · subst hid
      rw [Numbers.value_after_self, value_publish]
    · rw [Numbers.value_after_of_ne hid]
      exact h.value v (toNat_lt_of_ne hv hid)
  · rw [Numbers.slot_after, slot_publish hview he]
    by_cases hid : w = view.id
    · rw [if_pos ⟨hlt, hid⟩]
    · rw [if_neg fun hboth => hid hboth.2]
      exact h.slot j u w he hlt (toNat_lt_of_ne hw hid)

theorem sound_of_started (hl : l.Built) (h : Started l l.vertexCount x) : Sound l x := by
  intro j u w he hlt
  have hw := (hl.lt_vertexCount (Array.mem_of_getElem? he)).2
  rw [h.slot j u w he hlt hw, h.value w hw]

/-- The color that a vertex takes is the least one that it does not read. -/
theorem isLeast_color (hl : l.Built) (hn : l.vertexCount ≤ maxWord) (hview : view.Shows l.graph x)
    (h : Sound l x) :
    IsLeast (Free l x view.id)
      (firstFree ((view.outEdges.filter (view.id < ·.far)).map (·.value))) := by
  have hused : ∀ c, c ∈ (view.outEdges.filter (view.id < ·.far)).map (·.value) ↔
      ∃ j w, l.edges[j]? = some (view.id, w) ∧ view.id < w ∧ x.slot j = c := by
    intro c
    simp only [View.outEdges, View.outLinks, hview.adjacency, View.edgeOf, View.read, hview.slot,
      List.mem_map, List.mem_filter, Array.mem_toList_iff, decide_eq_true_eq]
    constructor
    · rintro ⟨_, ⟨⟨link, hlink, rfl⟩, hhigher⟩, rfl⟩
      exact ⟨link.slot, link.far, (Adjacency.mem_outOf_ofEdges.1 hlink).2, hhigher, rfl⟩
    · rintro ⟨j, w, he, hhigher, rfl⟩
      exact ⟨_, ⟨⟨⟨j, w⟩, Adjacency.mem_outOf_ofEdges.2 ⟨hview.id_lt, he⟩, rfl⟩, hhigher⟩, rfl⟩
  have hfree : Free l x view.id =
      {c | c ∉ (view.outEdges.filter (view.id < ·.far)).map (·.value)} := by
    ext c
    simp only [Set.mem_ofPred_eq, hused, Free]
    exact ⟨fun hc ⟨j, w, he, hhigher, heq⟩ => hc j w he hhigher heq,
      fun hc j w he hhigher heq => hc ⟨j, w, he, hhigher, heq⟩⟩
  obtain ⟨c, hc⟩ := exists_mem_free (v := view.id) hl hn h
  rw [hfree] at hc ⊢
  exact isLeast_firstFree ⟨c, hc⟩

/-- A vertex that has the least color it may have leaves everything as it is. Any other one
publishes that color, and tells those who read it. -/
theorem recolor_cases (hl : l.Built) (hn : l.vertexCount ≤ maxWord) (hview : view.Shows l.graph x)
    (h : Sound l x) :
    (Stable l x view.id ∧ recolor view = { state := (), view, verdict := .ok .quiet }) ∨
      ∃ c, ¬ Stable l x view.id ∧ IsLeast (Free l x view.id) c ∧
        recolor view = { state := (), view := publish view c,
                         requests := (lowerLinks view).map (.add ·.far false),
                         verdict := .ok .changed } := by
  have hleast := isLeast_color hl hn hview h
  unfold recolor
  simp only
  generalize firstFree ((view.outEdges.filter (view.id < ·.far)).map (·.value)) = color at *
  split
  · rename_i hsame
    rw [hsame, hview.value] at hleast
    exact .inl ⟨hleast, rfl⟩
  · rename_i hother
    refine .inr ⟨color, fun hstable => hother ?_, hleast, rfl⟩
    rw [hview.value]
    exact UInt32.le_antisymm (hleast.2 hstable.1) (hstable.2 hleast.1)

/-- Nobody else is unsettled by a color that was published, except for those who are told. -/
theorem unsettled_publish (hview : view.Shows l.graph x)
    (hleast : IsLeast (Free l x view.id) c)
    (hw : ¬ Stable l (x.after view.id (publish view c)) w) :
    (w ≠ view.id ∧ ¬ Stable l x w) ∨ (w < view.id ∧ (w, view.id) ∈ l.edges) := by
  by_cases hedge : w < view.id ∧ (w, view.id) ∈ l.edges
  · exact .inr hedge
  refine .inl ?_
  rw [Stable, free_publish hview hedge] at hw
  by_cases hid : w = view.id
  · subst hid
    rw [Numbers.value_after_self, value_publish] at hw
    exact absurd hleast hw
  · rw [Numbers.value_after_of_ne hid] at hw
    exact ⟨hid, hw⟩

/-- **Greedy coloring is a law of relaxation.** -/
def law (hl : l.Built) (hn : l.vertexCount ≤ maxWord) : Relaxation.Law l.graph start recolor where
  started := Started l
  sound := Sound l
  stable := Stable l
  started_zero _ := ⟨fun _ hv => absurd hv (Nat.not_lt_zero _),
    fun _ _ _ _ _ hw => absurd hw (Nat.not_lt_zero _)⟩
  sound_of_started h := by
    rw [Adjacency.vertexCount_ofEdges] at h
    exact sound_of_started hl h
  starts {x view} hview h :=
    ⟨.quiet, ⟨rfl, size_publish.trans hview.size, by simp [start]⟩, h.publish hview,
      .inr ⟨false, by simp [start]⟩⟩
  steps {x view} hview h := by
    obtain ⟨hstable, heq⟩ | ⟨c, -, hleast, heq⟩ := recolor_cases hl hn hview h <;> rw [heq]
    · rw [Numbers.after_eq hview]
      refine ⟨.quiet, ⟨rfl, hview.size, by simp⟩, h, fun w _ hw => .inl ⟨?_, hw⟩⟩
      rintro rfl
      exact hw hstable
    · refine ⟨.changed, ⟨rfl, size_publish.trans hview.size, by simp⟩, h.publish hview,
        fun w _ hw => ?_⟩
      refine (unsettled_publish hview hleast hw).imp_right fun ⟨hlt, hedge⟩ => ⟨rfl, false, ?_⟩
      obtain ⟨j, hj⟩ := Array.getElem?_of_mem hedge
      exact Array.mem_map.2 ⟨⟨j, w⟩, (mem_lowerLinks hview).2 ⟨hj, hlt⟩, rfl⟩

theorem program_eq : program = Relaxation.ofTurns start recolor := rfl

/-! ## Converged runs -/

/-- When every vertex is stable the coloring is greedy. -/
theorem isGreedy_of_stable (hsound : Sound l x)
    (hstable : ∀ {v : VertexId}, v.toNat < l.vertexCount → Stable l x v) :
    IsGreedy l x.value := by
  intro v hv
  have hfree : Free l x v = {c | ∀ w, (v, w) ∈ l.edges → v < w → x.value w ≠ c} := by
    ext c
    constructor
    · intro hc w hedge hlt
      obtain ⟨j, hj⟩ := Array.getElem?_of_mem hedge
      rw [← hsound j v w hj hlt]
      exact hc j w hj hlt
    · intro hc j w he hlt
      rw [hsound j v w he hlt]
      exact hc w (Array.mem_of_getElem? he) hlt
  rw [← hfree]
  exact hstable hv

private theorem isGreedy_value (hl : l.Built) (hn : l.vertexCount ≤ maxWord)
    (h : solve l settings = .ok found) (hconverged : found.report.outcome = .converged) :
    found.values.size = l.vertexCount ∧ IsGreedy l found.value := by
  rw [solve, program_eq] at h
  obtain ⟨x, hvalue, hsize, hsound, hstable⟩ := (law hl hn).exists_stable hn h hconverged
  rw [hvalue]
  exact ⟨hsize, isGreedy_of_stable hsound hstable⟩

/-- **A converged run has found the greedy coloring**, which is the only one of its kind. So
neighbors have different colors along the edges to higher ids, and the colors do not depend on the
settings. -/
theorem isGreedy_solve (hl : l.Built) (hn : l.vertexCount ≤ maxWord)
    (h : solve l settings = .ok found) (hconverged : found.report.outcome = .converged) :
    found.values.size = l.vertexCount ∧ IsGreedy l found.value ∧
      (∀ color, IsGreedy l color → ∀ v : VertexId, v.toNat < l.vertexCount →
        color v = found.value v) ∧
      (∀ u v, (u, v) ∈ l.edges → u < v → found.value u ≠ found.value v) ∧
      ∀ {settings' : Settings} {found' : Relaxed}, solve l settings' = .ok found' →
        found'.report.outcome = .converged → found'.values = found.values := by
  obtain ⟨hsize, hgreedy⟩ := isGreedy_value hl hn h hconverged
  refine ⟨hsize, hgreedy, fun color hcolor v hv => hcolor.unique hl hgreedy hv,
    fun u v hedge hlt heq => ?_, fun {settings' found'} h' hconverged' => ?_⟩
  · exact (hgreedy u (hl.lt_vertexCount hedge).1).1 v hedge hlt heq.symm
  · obtain ⟨hsize', hgreedy'⟩ := isGreedy_value hl hn h' hconverged'
    exact Relaxed.values_congr hn hsize' hsize fun v hv => hgreedy'.unique hl hgreedy hv

/-- A cycle with a chord, a loop and a repeated edge. -/
def chordedCycle : EdgeList := .ofList [(0, 1), (1, 2), (2, 3), (3, 0), (0, 2), (1, 1), (0, 1)]

theorem isGreedy_solve_chordedCycle : ∃ found found',
    solve chordedCycle { selective := true, intervalSize := 3 } = .ok found ∧
      found.report.outcome = .converged ∧ found.values = #[2, 0, 1, 0] ∧
      solve chordedCycle {} = .ok found' ∧ found'.report.outcome = .converged ∧
      IsGreedy chordedCycle found.value ∧
      (∀ color, IsGreedy chordedCycle color → ∀ v : VertexId, v.toNat < 4 →
        color v = found.value v) ∧
      (∀ u v, (u, v) ∈ chordedCycle.edges → u < v → found.value u ≠ found.value v) ∧
      found'.values = found.values := by
  have hrun : (solve chordedCycle { selective := true, intervalSize := 3 }).toOption.any
      (fun found => found.report.outcome == .converged &&
        found.values == #[2, 0, 1, 0]) = true := by
    cbv
  have hrun' : (solve chordedCycle {}).toOption.any (·.report.outcome == .converged) = true := by
    cbv
  obtain ⟨found, h, hconverged, hvalues⟩ := Relaxed.exists_converged hrun
  obtain ⟨found', h', hconverged'⟩ := Yields.exists_ok_of_any hrun'
  rw [beq_iff_eq] at hconverged'
  obtain ⟨-, hgreedy, hunique, hproper, hsame⟩ :=
    isGreedy_solve (.ofList _) (by decide) h hconverged
  exact ⟨found, found', h, hconverged, hvalues, h', hconverged', hgreedy, hunique, hproper,
    hsame h' hconverged'⟩

end VertexSweep.Coloring
