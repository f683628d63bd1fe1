import VertexSweep.Match.Statistics
import VertexSweep.Proofs.Match.Arcs
import VertexSweep.Proofs.Match.Counting

/-!
# The figures of a run

`Statistics.AddsUp` says how the figures about a run, a table and a pattern fit together. The pairs
of a table are counted vertex by vertex, and once more pattern vertex by pattern vertex
(`Candidates.sum_length_matchesOf`); the edges of a pattern are counted source by source
(`Pattern.sum_length_neighborsOf`). The busiest round is the last one with the most changes
(`busiestRound?_decides`). All of this holds for any report, any pattern with fewer than 2³² edges,
and any table over no more vertices than the pattern has (`Statistics.addsUp_ofRun`).
-/

namespace VertexSweep

/-! ## The busiest round -/

section
variable {rounds : List RoundSummary} {r b : RoundSummary}

/-- One round more takes over if it has any changes and no fewer than the busiest one so far. -/
theorem busiestRound?_concat (rounds : List RoundSummary) (r : RoundSummary) :
    busiestRound? (rounds ++ [r]) =
      if r.changed = 0 then busiestRound? rounds
      else match busiestRound? rounds with
        | none => some r
        | some b => if b.changed ≤ r.changed then some r else some b := by
  rw [busiestRound?, List.foldl_append]
  rfl

/-- A round with changes, as many as any other round has, and the last such round. -/
structure IsBusiest (rounds : List RoundSummary) (b : RoundSummary) : Prop where
  changed_pos : 0 < b.changed
  le : ∀ r ∈ rounds, r.changed ≤ b.changed
  latest : ∃ before after, rounds = before ++ b :: after ∧ ∀ r ∈ after, r.changed < b.changed

theorem IsBusiest.mem (h : IsBusiest rounds b) : b ∈ rounds := by
  obtain ⟨before, after, rfl, -⟩ := h.latest
  exact List.mem_append_right before List.mem_cons_self

/-- A round with changes at the end is the busiest if no round before has more. -/
theorem IsBusiest.last (hpos : 0 < r.changed) (hle : ∀ r' ∈ rounds, r'.changed ≤ r.changed) :
    IsBusiest (rounds ++ [r]) r where
  changed_pos := hpos
  le := List.forall_mem_append.2 ⟨hle, List.forall_mem_singleton.2 (Nat.le_refl _)⟩
  latest := ⟨rounds, [], rfl, by simp⟩

theorem IsBusiest.concat (h : IsBusiest rounds b) (hlt : r.changed < b.changed) :
    IsBusiest (rounds ++ [r]) b where
  changed_pos := h.changed_pos
  le := List.forall_mem_append.2 ⟨h.le, List.forall_mem_singleton.2 (Nat.le_of_lt hlt)⟩
  latest := by
    obtain ⟨before, after, rfl, hafter⟩ := h.latest
    refine ⟨before, after ++ [r], by simp, ?_⟩
    exact List.forall_mem_append.2 ⟨hafter, List.forall_mem_singleton.2 hlt⟩

/-- **The busiest round** is there unless nothing changed at all. -/
theorem busiestRound?_decides (rounds : List RoundSummary) :
    match busiestRound? rounds with
    | none => ∀ r ∈ rounds, r.changed = 0
    | some b => IsBusiest rounds b := by
  induction rounds using List.reverseRecOn with
  | nil => simp [busiestRound?]
  | append_singleton rounds r ih =>
    rw [busiestRound?_concat]
    split_ifs with hquiet
    · cases hbusiest : busiestRound? rounds with
      | none =>
        rw [hbusiest] at ih
        exact List.forall_mem_append.2 ⟨ih, List.forall_mem_singleton.2 hquiet⟩
      | some b =>
        rw [hbusiest] at ih
        have hlt : r.changed < b.changed := hquiet ▸ ih.changed_pos
        exact ih.concat hlt
    · have hpos := Nat.pos_of_ne_zero hquiet
      cases hbusiest : busiestRound? rounds with
      | none =>
        rw [hbusiest] at ih
        exact .last hpos fun r' hr' => by simp [ih r' hr']
      | some b =>
        rw [hbusiest] at ih
        dsimp only
        split_ifs with hle
        · exact .last hpos fun r' hr' => Nat.le_trans (ih.le r' hr') hle
        · exact ih.concat (Nat.not_le.1 hle)

theorem busiestRound?_eq_none_iff :
    busiestRound? rounds = none ↔ ∀ r ∈ rounds, r.changed = 0 := by
  have hdecides := busiestRound?_decides rounds
  constructor
  · intro hnone
    rwa [hnone] at hdecides
  · intro hquiet
    cases hbusiest : busiestRound? rounds with
    | none => rfl
    | some b =>
      rw [hbusiest] at hdecides
      exact absurd (hquiet b hdecides.mem) (Nat.ne_of_gt hdecides.changed_pos)

theorem isBusiest_of_busiestRound? (h : busiestRound? rounds = some b) : IsBusiest rounds b := by
  have hdecides := busiestRound?_decides rounds
  rwa [h] at hdecides

end

/-! ## Counting pairs and edges -/

namespace Pairing

variable {r : Pairing} {p : PatternId}

theorem card_matchesOf : (r.matchesOf p).card = (r.pairs.filter (·.2 = p)).card := by
  refine Finset.card_image_of_injOn ?_
  rintro ⟨u, q⟩ hq ⟨v, q'⟩ hq' heq
  simp only [Finset.coe_filter, Set.mem_ofPred_eq] at hq hq'
  exact Prod.ext heq (hq.2.trans hq'.2.symm)

end Pairing

namespace Candidates

variable {t : Candidates} {ps : List PatternId}

/-- **The pairs are counted pattern vertex by pattern vertex**, if every candidate is among those
that are counted. -/
theorem sum_length_matchesOf (h : t.WF) (hnodup : ps.Nodup)
    (hall : ∀ u p, t.contains u p = true → p ∈ ps) :
    (ps.map fun p => (t.matchesOf p).length).sum = t.total := by
  have hmaps : Set.MapsTo Prod.snd (t.pairSet : Set (VertexId × PatternId)) ps.toFinset := by
    rintro ⟨u, p⟩ hp
    exact List.mem_toFinset.2 (hall u p ((mem_pairSet h).1 hp))
  calc (ps.map fun p => (t.matchesOf p).length).sum
    _ = ∑ p ∈ ps.toFinset, (t.matchesOf p).length := (List.sum_toFinset _ hnodup).symm
    _ = ∑ p ∈ ps.toFinset, (t.pairSet.filter (·.2 = p)).card := by
      refine Finset.sum_congr rfl fun p _ => ?_
      rw [h.tracks.matchesOf, length_ascending, Pairing.card_matchesOf]
    _ = t.pairSet.card := (Finset.card_eq_sum_card_fiberwise hmaps).symm
    _ = t.total := (total_eq_card h).symm

theorem one_le_count (h : t.WF) {u : VertexId} (hu : u ∈ t.liveVertices) : 1 ≤ t.count u := by
  obtain ⟨p, hp⟩ := (isLive_iff h).1 ((mem_liveVertices h).1 hu)
  rw [count_eq_length]
  exact List.length_pos_of_mem ((mem_candidatesOf h).2 hp)

/-- A live vertex has a candidate. -/
theorem liveCount_le_total (h : t.WF) : t.liveCount ≤ t.total := by
  rw [liveCount_eq_length, total_eq_sum, ← List.length_map t.count]
  refine List.length_le_sum_of_one_le _ fun n hn => ?_
  obtain ⟨u, hu, rfl⟩ := List.mem_map.1 hn
  exact one_le_count h hu

/-- No live vertex has more candidates than the one with the most. -/
theorem total_le_mul_largest :
    t.total ≤ t.liveCount * (t.liveVertices.map t.count).foldl max 0 := by
  rw [liveCount_eq_length, total_eq_sum, ← List.length_map t.count]
  refine List.sum_le_card_nsmul _ _ fun n hn => ?_
  rw [List.foldl_max, Nat.max_eq_right (Nat.zero_le _)]
  exact List.le_max?_getD_of_mem hn

end Candidates

namespace Pattern

variable {n : Nat} {arcs : Array (PatternId × PatternId)} {labels : Array Label} {t : Pattern}

/-- The edges are counted source by source. -/
theorem sum_length_neighborsOf (h : build n arcs labels = .ok t) (hsize : arcs.size ≤ maxWord) :
    (t.vertices.map fun p => (t.neighborsOf p).length).sum = t.edgeCount := by
  have hcount : t.edges.length = t.edgeCount := by
    rw [edges_build h hsize, List.length_mergeSort, Array.length_toList]
    exact (size_targets_build h).symm
  rw [← hcount, edges, List.length_flatMap]
  simp only [List.length_map]

end Pattern

/-! ## All figures together -/

namespace Statistics

/-- The figures fit together, and fit the report and the pattern. -/
structure AddsUp (s : Statistics) (report : Report) (pattern : Pattern) : Prop where
  matched : (s.pattern.map (·.matched)).sum = s.table.pairs
  outDegree : (s.pattern.map (·.outDegree)).sum = pattern.edgeCount
  allocated : s.table.allocated = s.table.liveVertices
  live_le_pairs : s.table.liveVertices ≤ s.table.pairs
  pairs_le : s.table.pairs ≤ s.table.liveVertices * s.table.largest
  quiet : s.run.busiestRound = none ↔ ∀ r ∈ report.rounds.toList, r.changed = 0
  busiest : ∀ i, s.run.busiestRound = some i →
    ∃ b ∈ report.rounds.toList, b.iteration = i ∧ IsBusiest report.rounds.toList b

variable {n : Nat} {arcs : Array (PatternId × PatternId)} {labels : Array Label}
  {pattern : Pattern} {table : Candidates}

/-- **The figures add up**, whatever the report says and whatever has been done to the table. -/
theorem addsUp_ofRun (report : Report) (hpattern : Pattern.build n arcs labels = .ok pattern)
    (hsize : arcs.size ≤ maxWord) (htable : table.Built)
    (hwidth : table.width ≤ pattern.vertexCount) :
    (ofRun report pattern table).AddsUp report pattern where
  matched := by
    have hn : pattern.vertexCount ≤ maxWord := by
      rw [Pattern.vertexCount_build hpattern]
      exact (Pattern.build_eq_ok hpattern).2.1
    have hall : ∀ u p, table.contains u p = true → p ∈ pattern.vertices := fun u p hp =>
      (Pattern.mem_vertices hn).2 (Nat.lt_of_lt_of_le (Candidates.lt_width htable.wf hp) hwidth)
    rw [ofRun, List.map_map]
    exact Candidates.sum_length_matchesOf htable.wf (Pattern.nodup_idsBelow hn) hall
  outDegree := by
    rw [ofRun, List.map_map]
    exact Pattern.sum_length_neighborsOf hpattern hsize
  allocated := by
    rw [ofRun, htable.wf.allocated_eq, Candidates.liveCount_eq_length]
  live_le_pairs := Candidates.liveCount_le_total htable.wf
  pairs_le := Candidates.total_le_mul_largest
  quiet := Option.map_eq_none_iff.trans busiestRound?_eq_none_iff
  busiest i hi := by
    obtain ⟨b, hb, rfl⟩ := Option.map_eq_some_iff.1 hi
    have hbusiest := isBusiest_of_busiestRound? hb
    exact ⟨b, hbusiest.mem, rfl, hbusiest⟩

/-- Two vertices with candidates, in slots the first of which has been used before. -/
def reusedTable : Candidates :=
  (Candidates.callAll Candidates.call (.ofCapacity 4 2)
    [.add 0 0, .prune 0 0, .add 3 1, .add 3 0, .add 1 1]).2

/-- Three rounds, of which the first and the last have as many changes. -/
def tiedReport : Report :=
  ⟨.iterationLimit, 3, #[.ofCounts 0 4 2 0, .ofCounts 1 4 0 1, .ofCounts 2 1 2 0]⟩

theorem built_reusedTable : reusedTable.Built :=
  .add _ _ (.add _ _ (.add _ _ (.prune _ _ (.add _ _ (.ofCapacity 4 2)))))

/-- A pattern that is wider than the table, with an edge twice. -/
theorem addsUp_ofRun_reusedTable : ∃ pattern,
    Pattern.build 3 #[(0, 1), (2, 0), (0, 1)] #[5, 5, 6] = .ok pattern ∧
      reusedTable.Built ∧ reusedTable.width ≤ pattern.vertexCount ∧
      (ofRun tiedReport pattern reusedTable).AddsUp tiedReport pattern ∧
      (ofRun tiedReport pattern reusedTable).run.busiestRound = some 2 ∧
      (ofRun tiedReport pattern reusedTable).table = ⟨4, 2, 2, 3, 2, 2⟩ := by
  obtain ⟨pattern, hpattern⟩ : ∃ pattern,
      Pattern.build 3 #[(0, 1), (2, 0), (0, 1)] #[5, 5, 6] = .ok pattern := ⟨_, rfl⟩
  have hwidth : reusedTable.width ≤ pattern.vertexCount := by
    rw [Pattern.vertexCount_build hpattern]
    decide
  exact ⟨pattern, hpattern, built_reusedTable, hwidth,
    addsUp_ofRun tiedReport hpattern (by decide) built_reusedTable hwidth, rfl, rfl⟩

end Statistics

end VertexSweep
