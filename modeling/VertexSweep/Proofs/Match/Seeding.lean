import VertexSweep.Proofs.Match.Covering
import VertexSweep.Proofs.Match.Table

/-!
# What seeding adds

While the table is open, a vertex that has no candidates gets all pattern vertices with its label,
and a vertex that has some is left alone. `Seeded` is the relation that this makes of a table:
it is what refinement starts from. A table without a vertex to seed (`Idle`) is left as it is, and
the sweep over it is quiet.
-/

namespace VertexSweep.Simulation

variable {P : Problem} {u v : VertexId} {p q : PatternId} {m m' : Matching} {k : Nat}
  {view : View Label Label} {t : Candidates}

/-! ## The relation after seeding -/

/-- The relation of `t` after the turns of the vertices below `k`. -/
def SeededBelow (P : Problem) (t : Candidates) (k : Nat) (u : VertexId) (p : PatternId) : Prop :=
  t.relation u p ∨
    (t.isSealed = false ∧ t.isLive u = false ∧ u.toNat < k ∧ P.Agrees u p)

/-- The relation that seeding makes of `t`. -/
def Seeded (P : Problem) (t : Candidates) : VertexId → PatternId → Prop :=
  SeededBelow P t P.vertexCount

/-- The table is open, but no vertex below `k` can be seeded: it has candidates already, or no
pattern vertex has its label. -/
def IdleBelow (P : Problem) (t : Candidates) (k : Nat) : Prop :=
  t.isSealed = false ∧
    ∀ u : VertexId, u.toNat < k → t.isLive u = true ∨ ∀ p, ¬ P.Agrees u p

/-- The table is open, but no vertex of the graph can be seeded. -/
def Idle (P : Problem) (t : Candidates) : Prop := IdleBelow P t P.vertexCount

theorem seededBelow_zero : SeededBelow P t 0 u p ↔ t.relation u p := by
  simp [SeededBelow]

theorem seeded_of_isSealed (h : t.isSealed = true) : Seeded P t u p ↔ t.relation u p := by
  simp [Seeded, SeededBelow, h]

theorem seeded_of_le (hu : P.vertexCount ≤ u.toNat) : Seeded P t u p ↔ t.relation u p := by
  have hout : ¬ u.toNat < P.vertexCount := Nat.not_lt.2 hu
  simp [Seeded, SeededBelow, hout]

theorem not_idle_of_isSealed (h : t.isSealed = true) : ¬ Idle P t := by
  rintro ⟨hopen, -⟩
  rw [h] at hopen
  cases hopen

theorem seeded_of_idle (h : Idle P t) : Seeded P t u p ↔ t.relation u p := by
  refine ⟨fun hp => hp.resolve_right ?_, .inl⟩
  rintro ⟨-, hlive, hu, hagrees⟩
  rcases h.2 u hu with hlive' | hnone
  · rw [hlive] at hlive'
    cases hlive'
  · exact hnone p hagrees

/-- One turn adds the pairs of one vertex. -/
theorem seededBelow_succ : SeededBelow P t (v.toNat + 1) u p ↔ SeededBelow P t v.toNat u p ∨
    (u = v ∧ t.isSealed = false ∧ t.isLive v = false ∧ P.Agrees v p) := by
  unfold SeededBelow
  have hlt : u.toNat < v.toNat + 1 ↔ u.toNat < v.toNat ∨ u = v := by
    rw [Nat.lt_succ_iff_lt_or_eq, UInt32.toNat_inj]
  rw [hlt]
  constructor
  · rintro (h | ⟨hopen, hlive, hu | rfl, hagrees⟩)
    · exact .inl (.inl h)
    · exact .inl (.inr ⟨hopen, hlive, hu, hagrees⟩)
    · exact .inr ⟨rfl, hopen, hlive, hagrees⟩
  · rintro ((h | ⟨hopen, hlive, hu, hagrees⟩) | ⟨rfl, hopen, hlive, hagrees⟩)
    · exact .inl h
    · exact .inr ⟨hopen, hlive, .inl hu, hagrees⟩
    · exact .inr ⟨hopen, hlive, .inr rfl, hagrees⟩

theorem idleBelow_succ : IdleBelow P t (v.toNat + 1) ↔
    IdleBelow P t v.toNat ∧ (t.isLive v = true ∨ ∀ p, ¬ P.Agrees v p) := by
  constructor
  · rintro ⟨hopen, hall⟩
    exact ⟨⟨hopen, fun u hu => hall u (Nat.lt_succ_of_lt hu)⟩, hall v (Nat.lt_succ_self _)⟩
  · rintro ⟨⟨hopen, hall⟩, hv⟩
    refine ⟨hopen, fun u hu => ?_⟩
    rcases Nat.lt_succ_iff_lt_or_eq.1 hu with hlt | heq
    · exact hall u hlt
    · rwa [UInt32.toNat_inj.1 heq]

/-! ## The update -/

/-- `m'` comes from `m` by adding the pairs of `u` with the given candidates. -/
structure Adds (u : VertexId) (ps : List PatternId) (m m' : Matching) : Prop where
  wf : m'.table.WF
  capacity : m'.table.capacity = m.table.capacity
  width : m'.table.width = m.table.width
  isSealed : m'.table.isSealed = m.table.isSealed
  pruned : m'.pruned = m.pruned
  relation_iff : ∀ {v q}, m'.table.relation v q ↔ m.table.relation v q ∨ (v = u ∧ q ∈ ps)

namespace Adds

variable {ps : List PatternId}

theorem refl (h : m.table.WF) : Adds u [] m m :=
  ⟨h, rfl, rfl, rfl, rfl, by simp⟩

/-- Adding one pair, whatever is counted. -/
theorem single (h : m.table.WF) (hopen : m.table.addDefect? u p = none)
    (htable : m'.table = (m.table.add u p).2) (hpruned : m'.pruned = m.pruned) :
    Adds u [p] m m' := by
  obtain ⟨-, hwf, hrelation⟩ := Candidates.add_of_addDefect?_eq_none h hopen
  obtain ⟨hcapacity, hwidth, hsealed⟩ := Candidates.shape_add (t := m.table) (u := u) (p := p)
  refine ⟨htable ▸ hwf, htable ▸ hcapacity, htable ▸ hwidth, htable ▸ hsealed, hpruned, ?_⟩
  intro v q
  rw [htable, Candidates.relation, hrelation, List.mem_singleton]

theorem cons {m₁ : Matching} (h : Adds u [p] m m₁) (h' : Adds u ps m₁ m') :
    Adds u (p :: ps) m m' := by
  refine ⟨h'.wf, h'.capacity.trans h.capacity, h'.width.trans h.width,
    h'.isSealed.trans h.isSealed, h'.pruned.trans h.pruned, fun {v q} => ?_⟩
  rw [h'.relation_iff, h.relation_iff, List.mem_singleton, List.mem_cons, or_assoc, ← and_or_left]

end Adds

theorem seedEach_of_new {ps : List PatternId} {a : Activity}
    (h : (m.table.add u p).1 = .ok true) :
    seedEach u (p :: ps) a m = seedEach u ps .changed
      { m with table := (m.table.add u p).2, seeded := m.seeded + 1 } := by
  cases m with
  | mk table seeded pruned history =>
    rcases hpair : table.add u p with ⟨result, table'⟩
    simp only [hpair] at h
    subst h
    simp only [seedEach, hpair]

theorem seedEach_of_old {ps : List PatternId} {a : Activity}
    (h : (m.table.add u p).1 = .ok false) :
    seedEach u (p :: ps) a m = seedEach u ps a { m with table := (m.table.add u p).2 } := by
  cases m with
  | mk table seeded pruned history =>
    rcases hpair : table.add u p with ⟨result, table'⟩
    simp only [hpair] at h
    subst h
    simp only [seedEach, hpair]

/-- Adding to an open table: it succeeds, and reports a change if there is anything new. -/
private theorem seedEach_yields {ps : List PatternId} :
    ∀ {a : Activity} {m : Matching}, m.table.WF → m.table.isSealed = false →
      u.toNat < m.table.capacity → (∀ p ∈ ps, p.toNat < m.table.width) →
      ∃ a' m', seedEach u ps a m = (.ok a', m') ∧ Adds u ps m m' ∧
        (a' = a ∨ a' = .changed) ∧ ((∃ p ∈ ps, ¬ m.table.relation u p) → a' = .changed) := by
  induction ps with
  | nil =>
    intro a m hwf _ _ _
    refine ⟨a, m, rfl, .refl hwf, .inl rfl, ?_⟩
    rintro ⟨p, hp, -⟩
    cases hp
  | cons p ps ih =>
    intro a m hwf hopen hu hall
    have hdefect := Candidates.addDefect?_eq_none_iff.2 ⟨hu, hall p List.mem_cons_self, hopen⟩
    have hresult := (Candidates.add_of_addDefect?_eq_none hwf hdefect).1
    cases hnew : m.table.contains u p with
    | false =>
      rw [hnew] at hresult
      rw [seedEach_of_new hresult]
      have hfirst : Adds u [p] m
          { m with table := (m.table.add u p).2, seeded := m.seeded + 1 } :=
        .single hwf hdefect rfl rfl
      obtain ⟨a', m', heach, hadds, hactivity, -⟩ := ih (a := .changed) hfirst.wf
        (hfirst.isSealed.trans hopen) (hfirst.capacity ▸ hu)
        fun q hq => hfirst.width ▸ hall q (List.mem_cons_of_mem p hq)
      have hchanged : a' = .changed := hactivity.elim id id
      exact ⟨a', m', heach, hfirst.cons hadds, .inr hchanged, fun _ => hchanged⟩
    | true =>
      rw [hnew] at hresult
      rw [seedEach_of_old hresult]
      have hfirst : Adds u [p] m { m with table := (m.table.add u p).2 } :=
        .single hwf hdefect rfl rfl
      obtain ⟨a', m', heach, hadds, hactivity, hchanged⟩ := ih (a := a) hfirst.wf
        (hfirst.isSealed.trans hopen) (hfirst.capacity ▸ hu)
        fun q hq => hfirst.width ▸ hall q (List.mem_cons_of_mem p hq)
      refine ⟨a', m', heach, hfirst.cons hadds, hactivity, ?_⟩
      rintro ⟨q, hq, hfresh⟩
      have hne : q ≠ p := fun heq => hfresh (heq ▸ hnew)
      refine hchanged ⟨q, (List.mem_cons.1 hq).resolve_left hne, fun hq' => hfresh ?_⟩
      exact (hfirst.relation_iff.1 hq').resolve_right fun h => hne (List.mem_singleton.1 h.2)

/-- **The seeding of one vertex** of an open table with the dimensions of graph and pattern: it
succeeds, a vertex without candidates gets all that agree with it, and there is a change if there
are any. -/
theorem seed_yields (view : View Label Label) (hwf : m.table.WF) (hopen : m.table.isSealed = false)
    (hid : view.id.toNat < m.table.capacity) (hwidth : m.table.width = P.wanted.size)
    (hvalue : view.value = P.labels view.id) :
    ∃ a m', seed P.pattern m view =
        { state := m', view, requests := #[.add view.id false], verdict := .ok a } ∧
      m'.table.WF ∧ m'.table.isSealed = false ∧ m'.table.capacity = m.table.capacity ∧
      m'.table.width = m.table.width ∧ m'.pruned = m.pruned ∧
      (∀ {v q}, m'.table.relation v q ↔ m.table.relation v q ∨
        (v = view.id ∧ m.table.isLive view.id = false ∧ P.Agrees view.id q)) ∧
      (a = .quiet ↔ m.table.isLive view.id = true ∨ ∀ q, ¬ P.Agrees view.id q) := by
  have hagrees : ∀ q, q ∈ P.pattern.vertices.filter (P.pattern.labelOf? · == some view.value) ↔
      P.Agrees view.id q := by
    intro q
    rw [List.mem_filter, Problem.mem_vertices, Problem.labelOf?_pattern, hvalue, beq_iff_eq]
    exact and_iff_right_of_imp Problem.Agrees.lt_size
  cases hlive : m.table.isLive view.id with
  | true =>
    refine ⟨.quiet, m, ?_, hwf, hopen, rfl, rfl, rfl, by simp, by simp⟩
    simp only [seed, hlive]
    rfl
  | false =>
    have hnone := (Candidates.isLive_eq_false_iff hwf).1 hlive
    obtain ⟨a, m', heach, hadds, hactivity, hchanged⟩ := seedEach_yields (a := .quiet) hwf hopen hid
      fun q hq => hwidth ▸ ((hagrees q).1 hq).lt_size
    refine ⟨a, m', ?_, hadds.wf, hadds.isSealed.trans hopen, hadds.capacity, hadds.width,
      hadds.pruned, fun {v q} => ?_, ?_⟩
    · simp only [seed, hlive, heach]
      rfl
    · rw [hadds.relation_iff, hagrees]
      simp
    · simp only [Bool.false_eq_true, false_or]
      constructor
      · intro hquiet q hq
        have := hchanged ⟨q, (hagrees q).2 hq, by simp [Candidates.relation, hnone q]⟩
        rw [hquiet] at this
        cases this
      · intro hall
        have hempty : P.pattern.vertices.filter (P.pattern.labelOf? · == some view.value) = [] :=
          List.eq_nil_iff_forall_not_mem.2 fun q hq => hall q ((hagrees q).1 hq)
        rw [hempty] at heach
        exact (Except.ok.inj (Prod.mk.inj heach).1).symm

end VertexSweep.Simulation
