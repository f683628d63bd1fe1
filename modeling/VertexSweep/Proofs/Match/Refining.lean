import VertexSweep.Proofs.Match.Covering
import VertexSweep.Proofs.Match.Table

/-!
# What one refinement does

The update that refines a vertex drops candidates while it checks others, on a table that other
vertices of the same sweep have read already. `Prunes` says what comes of it: only candidates of
that vertex go, and none that belongs to a relation covering its own pairs. The candidates that
stay were covered in the table that the update found (`refine_yields`), which need not be the one
that it leaves, since a vertex with a self-loop may have relied on a candidate of its own.
-/

namespace VertexSweep.Simulation

variable {P : Problem} {u : VertexId} {p : PatternId} {m m' : Matching} {view : View Label Label}
  {values : Array Label}

/-- `m'` comes from `m` by dropping candidates of `u` that no relation with all its pairs covered
contains. -/
structure Prunes (P : Problem) (u : VertexId) (m m' : Matching) : Prop where
  wf : m'.table.WF
  isSealed : m'.table.isSealed = m.table.isSealed
  le : ∀ {v p}, m'.table.relation v p → m.table.relation v p
  others : ∀ {v p}, v ≠ u → m.table.relation v p → m'.table.relation v p
  keeps : ∀ {S : VertexId → PatternId → Prop}, (∀ v p, S v p → P.Covered S v p) →
    (∀ v p, S v p → m.table.relation v p) → ∀ v p, S v p → m'.table.relation v p
  pruned_le : m.pruned ≤ m'.pruned
  pruned_eq_iff : m'.pruned = m.pruned ↔ ∀ v p, m.table.relation v p → m'.table.relation v p

namespace Prunes

theorem refl (h : m.table.WF) : Prunes P u m m :=
  ⟨h, rfl, id, fun _ => id, fun _ => id, Nat.le_refl _, ⟨fun _ _ _ => id, fun _ => rfl⟩⟩

theorem trans {m₁ m₂ m₃ : Matching} (h : Prunes P u m₁ m₂) (h' : Prunes P u m₂ m₃) :
    Prunes P u m₁ m₃ where
  wf := h'.wf
  isSealed := h'.isSealed.trans h.isSealed
  le hp := h.le (h'.le hp)
  others hne hp := h'.others hne (h.others hne hp)
  keeps hS hle := h'.keeps hS (h.keeps hS hle)
  pruned_le := Nat.le_trans h.pruned_le h'.pruned_le
  pruned_eq_iff := by
    have hle := h.pruned_le
    have hle' := h'.pruned_le
    constructor
    · intro heq v p hp
      exact h'.pruned_eq_iff.1 (by omega) v p (h.pruned_eq_iff.1 (by omega) v p hp)
    · intro hsame
      have hfirst := h.pruned_eq_iff.2 fun v p hp => h'.le (hsame v p hp)
      have hsecond := h'.pruned_eq_iff.2 fun v p hp => hsame v p (h.le hp)
      exact hsecond.trans hfirst

/-- Dropping one candidate that is not covered. -/
theorem single (h : m.table.WF) (hp : m.table.relation u p)
    (hcovered : ¬ P.Covered m.table.relation u p) :
    Prunes P u m { m with table := (m.table.prune u p).2, pruned := m.pruned + 1 } := by
  have hlive : m.table.isLive u = true := (Candidates.isLive_iff h).2 ⟨p, hp⟩
  obtain ⟨-, hwf, hcontains⟩ := Candidates.prune_of_isLive h (Candidates.lt_width h hp) hlive
  refine ⟨hwf, Candidates.isSealed_prune, fun hq => (hcontains.1 hq).1,
    fun hne hq => hcontains.2 ⟨hq, fun heq => hne heq.1⟩, fun {S} hS hle v q hq => ?_,
    Nat.le_succ _, ⟨fun heq => absurd heq (Nat.succ_ne_self _), fun hsame => ?_⟩⟩
  · refine hcontains.2 ⟨hle v q hq, ?_⟩
    rintro ⟨rfl, rfl⟩
    exact hcovered ((hS v q hq).mono hle)
  · exact absurd ⟨rfl, rfl⟩ (hcontains.1 (hsame u p hp)).2

end Prunes

/-! ## The candidates of a vertex -/

theorem refineEach_of_covers {pattern : Pattern} {ps : List PatternId} {a : Activity}
    (h : covers pattern m.table view p = true) :
    refineEach pattern view (p :: ps) a m = refineEach pattern view ps a m := by
  cases m
  simp only [refineEach, if_pos h]

theorem refineEach_of_not_covers {pattern : Pattern} {ps : List PatternId} {a : Activity}
    {b : Bool} (h : ¬ covers pattern m.table view p = true)
    (hprune : (m.table.prune view.id p).1 = .ok b) :
    refineEach pattern view (p :: ps) a m = refineEach pattern view ps .changed
      { m with table := (m.table.prune view.id p).2, pruned := m.pruned + 1 } := by
  cases m with
  | mk table seeded pruned history =>
    rcases hpair : table.prune view.id p with ⟨result, table'⟩
    simp only [hpair] at hprune
    subst hprune
    simp only [refineEach, if_neg h, hpair]

/-- Going through candidates of a vertex. -/
private theorem refineEach_yields (hlabels : P.LabelledBelow P.vertexCount values view.slots)
    (hgraph : view.adjacency = P.graph) {ps : List PatternId} :
    ∀ {a : Activity} {m : Matching}, m.table.WF → ps.Nodup →
      (∀ p ∈ ps, m.table.relation view.id p) →
      ∃ a' m', refineEach P.pattern view ps a m = (.ok a', m') ∧ Prunes P view.id m m' ∧
        (∀ p ∈ ps, m'.table.relation view.id p → P.Covered m.table.relation view.id p) ∧
        ((a' = a ∧ m' = m) ∨ (a' = .changed ∧ m'.pruned ≠ m.pruned)) := by
  induction ps with
  | nil =>
    intro a m hwf _ _
    refine ⟨a, m, rfl, .refl hwf, fun p hp => ?_, .inl ⟨rfl, rfl⟩⟩
    cases hp
  | cons p ps ih =>
    intro a m hwf hnodup hall
    obtain ⟨hfresh, hnodup⟩ := List.nodup_cons.1 hnodup
    have hp := hall p List.mem_cons_self
    have htail : ∀ q ∈ ps, m.table.relation view.id q := fun q hq =>
      hall q (List.mem_cons_of_mem p hq)
    by_cases hcovers : covers P.pattern m.table view p = true
    · rw [refineEach_of_covers hcovers]
      obtain ⟨a', m', heq, hprunes, hstay, hactivity⟩ := ih hwf hnodup htail
      refine ⟨a', m', heq, hprunes, fun q hq hleft => ?_, hactivity⟩
      rcases List.mem_cons.1 hq with rfl | hq
      · exact (covers_iff hlabels hgraph).1 hcovers
      · exact hstay q hq hleft
    · have hlive := (Candidates.isLive_iff hwf).2 ⟨p, hp⟩
      obtain ⟨hprune, -, hcontains⟩ :=
        Candidates.prune_of_isLive hwf (Candidates.lt_width hwf hp) hlive
      have hfirst := Prunes.single hwf hp fun h => hcovers ((covers_iff hlabels hgraph).2 h)
      rw [refineEach_of_not_covers hcovers hprune]
      obtain ⟨a', m', heq, hrest, hstay, hactivity⟩ := ih (a := .changed) hfirst.wf hnodup
        fun q hq => hcontains.2 ⟨htail q hq, fun h => hfresh (h.2 ▸ hq)⟩
      refine ⟨a', m', heq, hfirst.trans hrest, fun q hq hleft => ?_, .inr ⟨?_, ?_⟩⟩
      · rcases List.mem_cons.1 hq with rfl | hq
        · exact absurd ⟨rfl, rfl⟩ (hcontains.1 (hrest.le hleft)).2
        · exact (hstay q hq hleft).mono fun v q hv => hfirst.le hv
      · rcases hactivity with ⟨rfl, -⟩ | ⟨rfl, -⟩ <;> rfl
      · have := hrest.pruned_le
        simp only at this
        omega

/-! ## The update -/

/-- **The refinement of one vertex**: it succeeds, every candidate that stays was covered in the
table that it found, and if any had to go, all neighbors are wanted again. -/
theorem refine_yields (view : View Label Label)
    (hlabels : P.LabelledBelow P.vertexCount values view.slots)
    (hgraph : view.adjacency = P.graph) (hwf : m.table.WF) :
    ∃ a m' requests,
      refine P.pattern m view = { state := m', view, requests, verdict := .ok a } ∧
      Prunes P view.id m m' ∧
      (∀ p, m'.table.relation view.id p → P.Covered m.table.relation view.id p) ∧
      (∀ first last, .remove first last ∉ requests) ∧
      ((a = .quiet ∧ m' = m) ∨
        (a = .changed ∧ m'.pruned ≠ m.pruned ∧
          ∀ link ∈ view.links, .add link.far true ∈ requests)) := by
  cases hlive : m.table.isLive view.id with
  | false =>
    have hnone := (Candidates.isLive_eq_false_iff hwf).1 hlive
    refine ⟨.quiet, m, #[], ?_, .refl hwf, fun p hp => ?_, fun first last hmem => ?_,
      .inl ⟨rfl, rfl⟩⟩
    · simp only [refine, hlive]
      rfl
    · exact absurd hp (by simp [Candidates.relation, hnone p])
    · simp at hmem
  | true =>
    obtain ⟨a, m', heach, hprunes, hstay, hactivity⟩ :=
      refineEach_yields (a := .quiet) hlabels hgraph hwf (Candidates.nodup_candidatesOf hwf)
        fun p hp => (Candidates.mem_candidatesOf hwf).1 hp
    have hcovered : ∀ p, m'.table.relation view.id p → P.Covered m.table.relation view.id p :=
      fun p hp => hstay p ((Candidates.mem_candidatesOf hwf).2 (hprunes.le hp)) hp
    cases a with
    | quiet =>
      refine ⟨.quiet, m', #[], ?_, hprunes, hcovered, fun first last hmem => ?_, .inl ⟨rfl, ?_⟩⟩
      · simp only [refine, hlive, heach]
        rfl
      · simp at hmem
      · rcases hactivity with ⟨-, hsame⟩ | ⟨h, -⟩
        · exact hsame
        · cases h
    | changed =>
      refine ⟨.changed, m', view.links.map (.add ·.far true), ?_, hprunes, hcovered,
        fun first last hmem => ?_, .inr ⟨rfl, ?_, ?_⟩⟩
      · simp only [refine, hlive, heach]
        rfl
      · obtain ⟨link, -, h⟩ := Array.mem_map.1 hmem
        cases h
      · rcases hactivity with ⟨h, -⟩ | ⟨-, hne⟩
        · cases h
        · exact hne
      · exact fun link hlink => Array.mem_map.2 ⟨link, hlink, rfl⟩

end VertexSweep.Simulation
