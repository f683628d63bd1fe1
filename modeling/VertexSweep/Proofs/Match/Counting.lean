import VertexSweep.Proofs.Match.Pairing
import VertexSweep.Proofs.Match.Refining
import VertexSweep.Proofs.Match.Seeding

/-!
# Counting candidates

The total of a well-formed table is the number of pairs of its relation
(`Candidates.total_eq_card`), so an addition of a fresh pair raises it by one and a removal lowers
it by one. An update counts what it adds and what it drops: `Gains` and `Loses` say that the counter
and the total have moved by the same number. A vertex may be seeded halfway, when an addition is
refused after others were made; that half is counted too (`seedEach_gains`).
-/

namespace VertexSweep

namespace Candidates

variable {t t' : Candidates} {u : VertexId} {p : PatternId}

/-- The pairs of a vertex and one of its candidates. -/
def pairSet (t : Candidates) : Finset (VertexId × PatternId) :=
  t.liveVertices.toFinset.biUnion fun u => (t.candidatesOf u).toFinset.image fun p => (u, p)

theorem mem_pairSet (h : t.WF) : (u, p) ∈ t.pairSet ↔ t.contains u p = true := by
  simp only [pairSet, Finset.mem_biUnion, Finset.mem_image, List.mem_toFinset, Prod.mk.injEq]
  constructor
  · rintro ⟨_, -, _, hp, rfl, rfl⟩
    exact (mem_candidatesOf h).1 hp
  · intro hp
    have hlive := (mem_liveVertices h).2 ((isLive_iff h).2 ⟨p, hp⟩)
    exact ⟨u, hlive, p, (mem_candidatesOf h).2 hp, rfl, rfl⟩

theorem WF.tracks (h : t.WF) : t.Tracks ⟨t.capacity, t.width, t.pairSet, t.isSealed⟩ :=
  ⟨h, rfl, rfl, rfl, fun _ _ => (mem_pairSet h).symm⟩

theorem total_eq_card (h : t.WF) : t.total = t.pairSet.card := h.tracks.total

/-- A larger relation has no fewer pairs. -/
theorem total_le (h : t.WF) (h' : t'.WF)
    (hle : ∀ u p, t.contains u p = true → t'.contains u p = true) : t.total ≤ t'.total := by
  rw [total_eq_card h, total_eq_card h']
  apply Finset.card_le_card
  rintro ⟨u, p⟩ hp
  exact (mem_pairSet h').2 (hle u p ((mem_pairSet h).1 hp))

/-- One fresh pair more. -/
theorem total_of_insert (h : t.WF) (h' : t'.WF) (hfresh : t.contains u p = false)
    (hinsert : ∀ {v q}, t'.contains v q = true ↔ t.contains v q = true ∨ (v = u ∧ q = p)) :
    t'.total = t.total + 1 := by
  have hnot : (u, p) ∉ t.pairSet := by
    rw [mem_pairSet h, hfresh]
    exact Bool.false_ne_true
  have hset : t'.pairSet = insert (u, p) t.pairSet := by
    ext ⟨v, q⟩
    rw [mem_pairSet h', hinsert, Finset.mem_insert, mem_pairSet h, Prod.mk.injEq, or_comm]
  rw [total_eq_card h, total_eq_card h', hset, Finset.card_insert_of_notMem hnot]

/-- Adding counts a pair if and only if it was new. -/
theorem total_add (h : t.WF) (hopen : t.addDefect? u p = none) :
    (t.add u p).2.total = if t.contains u p then t.total else t.total + 1 := by
  obtain ⟨-, hwf, hinsert⟩ := add_of_addDefect?_eq_none h hopen
  cases hold : t.contains u p with
  | false => exact total_of_insert h hwf hold hinsert
  | true =>
    refine Nat.le_antisymm (total_le hwf h fun v q hq => ?_)
      (total_le h hwf fun v q hq => hinsert.2 (.inl hq))
    rcases hinsert.1 hq with hq | ⟨rfl, rfl⟩
    · exact hq
    · exact hold

theorem total_prune (h : t.WF) (hp : t.contains u p = true) :
    (t.prune u p).2.total + 1 = t.total := by
  have hlive := (isLive_iff h).2 ⟨p, hp⟩
  obtain ⟨-, hwf, herase⟩ := prune_of_isLive h (lt_width h hp) hlive
  refine (total_of_insert hwf h (u := u) (p := p) ?_ fun {v q} => ?_).symm
  · rw [← Bool.not_eq_true, herase]
    exact fun hnot => hnot.2 ⟨rfl, rfl⟩
  · rw [herase]
    constructor
    · exact fun hq => (Classical.em (v = u ∧ q = p)).symm.imp_left fun hne => ⟨hq, hne⟩
    · rintro (hq | ⟨rfl, rfl⟩)
      · exact hq.1
      · exact hp

end Candidates

namespace Simulation

variable {pattern : Pattern} {view : View Label Label} {u : VertexId} {p : PatternId}
  {ps : List PatternId} {a b : Activity} {m m₁ m' : Matching} {k n : Nat}

/-- `m'` comes from `m` by adding `n` pairs, which are counted. -/
structure Gains (n : Nat) (m m' : Matching) : Prop where
  wf : m'.table.WF
  total : m'.table.total = m.table.total + n
  seeded : m'.seeded = m.seeded + n
  pruned : m'.pruned = m.pruned
  isSealed : m'.table.isSealed = m.table.isSealed
  history : m'.history = m.history

/-- `m'` comes from `m` by dropping `n` pairs, which are counted. -/
structure Loses (n : Nat) (m m' : Matching) : Prop where
  wf : m'.table.WF
  total : m'.table.total + n = m.table.total
  seeded : m'.seeded = m.seeded
  pruned : m'.pruned = m.pruned + n
  isSealed : m'.table.isSealed = m.table.isSealed
  history : m'.history = m.history

theorem Gains.refl (h : m.table.WF) : Gains 0 m m := ⟨h, rfl, rfl, rfl, rfl, rfl⟩

theorem Gains.trans (h : Gains k m m₁) (h' : Gains n m₁ m') : Gains (k + n) m m' where
  wf := h'.wf
  total := by rw [h'.total, h.total, Nat.add_assoc]
  seeded := by rw [h'.seeded, h.seeded, Nat.add_assoc]
  pruned := h'.pruned.trans h.pruned
  isSealed := h'.isSealed.trans h.isSealed
  history := h'.history.trans h.history

theorem Loses.refl (h : m.table.WF) : Loses 0 m m := ⟨h, rfl, rfl, rfl, rfl, rfl⟩

theorem Loses.trans (h : Loses k m m₁) (h' : Loses n m₁ m') : Loses (k + n) m m' where
  wf := h'.wf
  total := by rw [Nat.add_comm k, ← Nat.add_assoc, h'.total, h.total]
  seeded := h'.seeded.trans h.seeded
  pruned := by rw [h'.pruned, h.pruned, Nat.add_assoc]
  isSealed := h'.isSealed.trans h.isSealed
  history := h'.history.trans h.history

/-! ## One candidate -/

theorem Gains.new (h : m.table.WF) (hopen : m.table.addDefect? u p = none)
    (hnew : m.table.contains u p = false) :
    Gains 1 m { m with table := (m.table.add u p).2, seeded := m.seeded + 1 } where
  wf := h.add
  total := by rw [Candidates.total_add h hopen, hnew, if_neg Bool.false_ne_true]
  seeded := rfl
  pruned := rfl
  isSealed := Candidates.shape_add.2.2
  history := rfl

theorem Gains.old (h : m.table.WF) (hopen : m.table.addDefect? u p = none)
    (hold : m.table.contains u p = true) : Gains 0 m { m with table := (m.table.add u p).2 } where
  wf := h.add
  total := by rw [Candidates.total_add h hopen, hold, if_pos rfl, Nat.add_zero]
  seeded := rfl
  pruned := rfl
  isSealed := Candidates.shape_add.2.2
  history := rfl

theorem Loses.single (h : m.table.WF) (hp : m.table.contains u p = true) :
    Loses 1 m { m with table := (m.table.prune u p).2, pruned := m.pruned + 1 } where
  wf := h.prune
  total := Candidates.total_prune h hp
  seeded := rfl
  pruned := rfl
  isSealed := Candidates.isSealed_prune
  history := rfl

/-! ## The candidates of a vertex -/

/-- An addition that is refused leaves what was done before it. -/
theorem seedEach_of_refused {fault : Fault} (h : m.table.addDefect? u p = some fault) :
    seedEach u (p :: ps) a m = (.error fault, m) := by
  obtain ⟨table, seeded, pruned, history⟩ := m
  have hadd : table.add u p = (.error fault, table) := Candidates.add_of_addDefect?_eq_some h
  simp only [seedEach, hadd]

/-- What is added is counted, be it all or only what came before a refusal; without a refusal the
activity tells whether anything was added. -/
theorem seedEach_gains (ps : List PatternId) (h : m.table.WF) :
    ∃ n, Gains n m (seedEach u ps a m).2 ∧
      ∀ b, (seedEach u ps a m).1 = .ok b → b = if n = 0 then a else .changed := by
  induction ps generalizing a m with
  | nil =>
    refine ⟨0, .refl h, fun b hb => ?_⟩
    cases hb
    rfl
  | cons p ps ih =>
    cases hdefect : m.table.addDefect? u p with
    | some fault =>
      rw [seedEach_of_refused hdefect]
      exact ⟨0, .refl h, nofun⟩
    | none =>
      have hresult := (Candidates.add_of_addDefect?_eq_none h hdefect).1
      cases hold : m.table.contains u p with
      | false =>
        have hfirst := Gains.new h hdefect hold
        rw [hold] at hresult
        rw [seedEach_of_new hresult]
        obtain ⟨n, hgains, hactivity⟩ := ih (a := .changed) hfirst.wf
        refine ⟨1 + n, hfirst.trans hgains, fun b hb => ?_⟩
        rw [if_neg (by omega), hactivity b hb, ite_self]
      | true =>
        have hfirst := Gains.old h hdefect hold
        rw [hold] at hresult
        rw [seedEach_of_old hresult]
        obtain ⟨n, hgains, hactivity⟩ := ih (a := a) hfirst.wf
        rw [← Nat.zero_add n] at hactivity
        exact ⟨0 + n, hfirst.trans hgains, hactivity⟩

/-- What is dropped is counted, and nothing else happens to different candidates of a vertex. -/
theorem refineEach_loses (pattern : Pattern) (h : m.table.WF) (hnodup : ps.Nodup)
    (hall : ∀ p ∈ ps, m.table.contains view.id p = true) :
    ∃ n, (refineEach pattern view ps a m).1 = .ok (if n = 0 then a else .changed) ∧
      Loses n m (refineEach pattern view ps a m).2 := by
  induction ps generalizing a m with
  | nil => exact ⟨0, rfl, .refl h⟩
  | cons p ps ih =>
    obtain ⟨hfresh, hnodup⟩ := List.nodup_cons.1 hnodup
    have hp := hall p List.mem_cons_self
    have htail : ∀ q ∈ ps, m.table.contains view.id q = true := fun q hq =>
      hall q (List.mem_cons_of_mem p hq)
    by_cases hcovers : covers pattern m.table view p = true
    · rw [refineEach_of_covers hcovers]
      exact ih h hnodup htail
    · have hlive := (Candidates.isLive_iff h).2 ⟨p, hp⟩
      obtain ⟨hprune, -, herase⟩ := Candidates.prune_of_isLive h (Candidates.lt_width h hp) hlive
      have hfirst := Loses.single h hp
      rw [refineEach_of_not_covers hcovers hprune]
      obtain ⟨n, hverdict, hloses⟩ := ih (a := .changed) hfirst.wf hnodup fun q hq =>
        herase.2 ⟨htail q hq, fun heq => hfresh (heq.2 ▸ hq)⟩
      refine ⟨1 + n, ?_, hfirst.trans hloses⟩
      rw [hverdict, ite_self, if_neg (by omega)]

/-! ## The updates -/

private theorem eq_quiet_iff : (if n = 0 then Activity.quiet else .changed) = .quiet ↔ n = 0 := by
  split <;> simp [*]

/-- **Seeding a vertex** counts the pairs that it adds, and if it succeeds it is quiet exactly if
there are none. -/
theorem seed_gains (pattern : Pattern) (view : View Label Label) (h : m.table.WF) :
    ∃ n, Gains n m (seed pattern m view).state ∧
      ∀ b, (seed pattern m view).verdict = .ok b → (b = .quiet ↔ n = 0) := by
  cases hlive : m.table.isLive view.id with
  | true =>
    refine ⟨0, ?_, fun b hb => ?_⟩
    · simp only [seed, hlive]
      exact .refl h
    · simp only [seed, hlive] at hb
      cases hb
      exact iff_of_true rfl rfl
  | false =>
    obtain ⟨n, hgains, hactivity⟩ := seedEach_gains (u := view.id) (a := .quiet)
      (pattern.vertices.filter (pattern.labelOf? · == some view.value)) h
    refine ⟨n, ?_, fun b hb => ?_⟩
    · simp only [seed, hlive]
      exact hgains
    · simp only [seed, hlive] at hb
      rw [hactivity b hb, eq_quiet_iff]

/-- **Refining a vertex** succeeds, counts the pairs that it drops, and is quiet exactly if there
are none. -/
theorem refine_loses (pattern : Pattern) (view : View Label Label) (h : m.table.WF) :
    ∃ b n, (refine pattern m view).verdict = .ok b ∧
      Loses n m (refine pattern m view).state ∧ (b = .quiet ↔ n = 0) := by
  cases hlive : m.table.isLive view.id with
  | false =>
    refine ⟨.quiet, 0, ?_, ?_, iff_of_true rfl rfl⟩
    · simp only [refine, hlive]
      rfl
    · simp only [refine, hlive]
      exact .refl h
  | true =>
    obtain ⟨n, hverdict, hloses⟩ := refineEach_loses (a := .quiet) pattern h
      (Candidates.nodup_candidatesOf h) fun p => (Candidates.mem_candidatesOf h).1
    refine ⟨_, n, ?_, ?_, eq_quiet_iff⟩
    · simp only [refine, hlive]
      exact hverdict
    · simp only [refine, hlive]
      exact hloses

end Simulation

end VertexSweep
