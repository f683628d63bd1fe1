import VertexSweep.Proofs.Relax.Propagation

/-!
# Components

Components are a propagation of ids (`Components.propagation`): the ids that fit a vertex are those
of the vertices connected to it, weakly if ids travel both ways along an edge and by a path to the
vertex if they travel along the edges only (`Direction.Connects`). When all vertices are stable no
vertex has more than another one that is connected to it, so after convergence each has the least
id that fits (`isLeast_linked_solve`, `isLeast_reaches_solve`).
-/

namespace VertexSweep.Components

variable {l : EdgeList} {direction : Direction} {settings : Settings} {found : Relaxed}
  {x : Numbers} {u v w : VertexId} {e : VertexId × VertexId}

/-! ## Which ids travel where -/

/-- The id of the first vertex may travel to the second one. -/
def Direction.Connects (l : EdgeList) : Direction → VertexId → VertexId → Prop
  | undirected => l.Linked
  | directed => l.Reaches

namespace Direction

theorem Connects.refl : ∀ {direction : Direction}, direction.Connects l v v
  | undirected => Relation.EqvGen.refl v
  | directed => Relation.ReflTransGen.refl

theorem Connects.snoc (he : e ∈ l.edges) (hwrites : direction.Writes e v)
    (hreads : direction.Reads e w) (h : direction.Connects l u v) : direction.Connects l u w := by
  cases direction with
  | directed =>
    obtain rfl : v = e.1 := hwrites
    obtain rfl : w = e.2 := hreads
    exact Relation.ReflTransGen.tail h he
  | undirected =>
    have hedge : l.Linked e.1 e.2 := .rel _ _ he
    refine Relation.EqvGen.trans _ _ _ h ?_
    rcases hwrites with rfl | rfl <;> rcases hreads with rfl | rfl
    · exact .refl _
    · exact hedge
    · exact .symm _ _ hedge
    · exact .refl _

/-- The source of an edge writes its slot, in either direction. -/
theorem writes_source : ∀ {direction : Direction}, direction.Writes e e.1
  | undirected => .inl rfl
  | directed => rfl

end Direction

/-- Ids spread to whatever they are connected to. -/
def propagation (l : EdgeList) (direction : Direction) : Propagation l where
  direction := direction
  first v := v
  offered v := v
  offer := id
  Fits v c := direction.Connects l c v
  le_offer c := UInt32.le_refl c
  fits_first _ := .refl
  fits_offered he hreads := .snoc he Direction.writes_source hreads .refl
  fits_offer he hwrites hreads := .snoc he hwrites hreads

theorem exists_start_eq (view : View UInt32 UInt32) :
    ∃ requests, start view = (propagation l direction).establish view requests ∧
      (∀ first last, .remove first last ∉ requests) ∧
      ((∀ x, (propagation l direction).Started l.vertexCount x →
          (propagation l direction).Stable x view.id) ∨
        ∃ urgent, .add view.id urgent ∈ requests) :=
  ⟨#[.add view.id false], rfl, by simp, .inr ⟨false, by simp⟩⟩

def law (hl : l.Built) (direction : Direction) :
    Relaxation.Law l.graph start (propagate direction id) :=
  (propagation l direction).law hl exists_start_eq

theorem program_eq : program direction = Relaxation.ofTurns start (propagate direction id) := rfl

/-! ## Converged runs -/

/-- Among stable vertices ids do not increase along the edges. -/
theorem value_le_of_reaches (hl : l.Built)
    (hstable : ∀ {v : VertexId}, v.toNat < l.vertexCount → (propagation l .directed).Stable x v)
    (h : l.Reaches u v) : x.value v ≤ x.value u := by
  induction h with
  | refl => exact UInt32.le_refl _
  | tail _ hedge ih =>
    obtain ⟨hsource, htarget⟩ := hl.lt_vertexCount hedge
    refine UInt32.le_trans ?_ ih
    exact Propagation.le_offer_of_stable (hstable hsource) (hstable htarget) hedge rfl rfl

/-- Stable vertices have the same id as those to which they are linked. -/
theorem value_eq_of_linked (hl : l.Built)
    (hstable : ∀ {v : VertexId}, v.toNat < l.vertexCount → (propagation l .undirected).Stable x v)
    (h : l.Linked u v) : x.value u = x.value v := by
  induction h with
  | rel u v hedge =>
    obtain ⟨hsource, htarget⟩ := hl.lt_vertexCount hedge
    apply UInt32.le_antisymm
    · exact Propagation.le_offer_of_stable (hstable htarget) (hstable hsource) hedge
        (.inr rfl) (.inl rfl)
    · exact Propagation.le_offer_of_stable (hstable hsource) (hstable htarget) hedge
        (.inl rfl) (.inr rfl)
  | refl u => rfl
  | symm _ _ _ ih => exact ih.symm
  | trans _ _ _ _ _ ih ih' => exact ih.trans ih'

/-- **A converged undirected run has found the weakly connected components**: every vertex has the
least id in its component, so two vertices have the same number exactly if they are linked. -/
theorem isLeast_linked_solve (hl : l.Built) (hn : l.vertexCount ≤ maxWord)
    (h : solve l .undirected settings = .ok found)
    (hconverged : found.report.outcome = .converged) :
    found.values.size = l.vertexCount ∧
      (∀ v : VertexId, v.toNat < l.vertexCount →
        IsLeast {u | l.Linked u v} (found.value v)) ∧
      ∀ u v : VertexId, u.toNat < l.vertexCount → v.toNat < l.vertexCount →
        (found.value u = found.value v ↔ l.Linked u v) := by
  rw [solve, program_eq] at h
  obtain ⟨x, hvalue, hsize, hsound, hstable⟩ :=
    (law hl .undirected).exists_stable hn h hconverged
  rw [hvalue]
  have hlinked : ∀ {v : VertexId}, v.toNat < l.vertexCount → l.Linked (x.value v) v :=
    fun hv => hsound.fits hv
  refine ⟨hsize, fun v hv => ⟨hlinked hv, fun u hu => ?_⟩, fun u v hu hv => ⟨fun heq => ?_,
    value_eq_of_linked hl hstable⟩⟩
  · rw [← value_eq_of_linked hl hstable hu]
    exact hsound.le_first ((hu.lt_vertexCount_iff hl).2 hv)
  · have hv' := hlinked hv
    rw [← heq] at hv'
    exact .trans _ _ _ (.symm _ _ (hlinked hu)) hv'

/-- A path against the order of ids, a cycle with a repeated edge, and a loop apart. -/
def scattered : EdgeList := .ofList [(2, 0), (0, 1), (4, 3), (3, 4), (5, 5), (3, 4)]

theorem isLeast_linked_solve_scattered : ∃ found,
    solve scattered .undirected { selective := true, intervalSize := 4 } = .ok found ∧
      found.report.outcome = .converged ∧ found.values = #[0, 0, 0, 3, 3, 5] ∧
      (∀ v : VertexId, v.toNat < 6 → IsLeast {u | scattered.Linked u v} (found.value v)) ∧
      ∀ u v : VertexId, u.toNat < 6 → v.toNat < 6 →
        (found.value u = found.value v ↔ scattered.Linked u v) := by
  have hrun : (solve scattered .undirected { selective := true, intervalSize := 4 }).toOption.any
      (fun found => found.report.outcome == .converged &&
        found.values == #[0, 0, 0, 3, 3, 5]) = true := by
    decide +kernel
  obtain ⟨found, h, hconverged, hvalues⟩ := Relaxed.exists_converged hrun
  obtain ⟨-, hleast, hsame⟩ := isLeast_linked_solve (.ofList _) (by decide) h hconverged
  exact ⟨found, h, hconverged, hvalues, hleast, hsame⟩

/-- **A converged directed run has found the least ancestors**: every vertex has the least id from
which there is a path to it, its own included. -/
theorem isLeast_reaches_solve (hl : l.Built) (hn : l.vertexCount ≤ maxWord)
    (h : solve l .directed settings = .ok found) (hconverged : found.report.outcome = .converged) :
    found.values.size = l.vertexCount ∧
      ∀ v : VertexId, v.toNat < l.vertexCount →
        IsLeast {u | l.Reaches u v} (found.value v) := by
  rw [solve, program_eq] at h
  obtain ⟨x, hvalue, hsize, hsound, hstable⟩ := (law hl .directed).exists_stable hn h hconverged
  rw [hvalue]
  refine ⟨hsize, fun v hv => ⟨hsound.fits hv, fun u hu => ?_⟩⟩
  calc x.value v ≤ x.value u := value_le_of_reaches hl hstable hu
    _ ≤ u := hsound.le_first (hu.lt_vertexCount hl hv)

theorem isLeast_reaches_solve_scattered : ∃ found,
    solve scattered .directed { selective := true, intervalSize := 1 } = .ok found ∧
      found.report.outcome = .converged ∧ found.values = #[0, 0, 2, 3, 3, 5] ∧
      ∀ v : VertexId, v.toNat < 6 → IsLeast {u | scattered.Reaches u v} (found.value v) := by
  have hrun : (solve scattered .directed { selective := true, intervalSize := 1 }).toOption.any
      (fun found => found.report.outcome == .converged &&
        found.values == #[0, 0, 2, 3, 3, 5]) = true := by
    decide +kernel
  obtain ⟨found, h, hconverged, hvalues⟩ := Relaxed.exists_converged hrun
  obtain ⟨-, hleast⟩ := isLeast_reaches_solve (.ofList _) (by decide) h hconverged
  exact ⟨found, h, hconverged, hvalues, hleast⟩

end VertexSweep.Components
