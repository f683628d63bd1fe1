import Mathlib.Algebra.BigOperators.Group.Finset.Piecewise
import VertexSweep.Proofs.Match.Auditing
import VertexSweep.Proofs.Match.Counting

/-!
# What an audit finds

An audit takes a table that need not fit the graph, labels that need not be as many as there are
vertices, and a pattern of any size. Where labels are compared an id may be out of range on both
sides, so that two missing labels pass for equal. This does no harm: if the dimensions are right
there are no such ids, and if they are not the audit fails for that (`Subject.success_iff_passes`).
The list of findings is cut off, but it is as long as the number of defects allows
(`Subject.length_findings`).
-/

namespace VertexSweep.Audit

/-- What an audit is given, each part of it made by the operations that make such things. None of
them need fit the others. -/
structure Subject where
  list : EdgeList
  labels : Array Label
  /-- The edges from which the pattern was built. -/
  arcs : Array (PatternId × PatternId)
  /-- The labels from which the pattern was built. -/
  wanted : Array Label
  pattern : Pattern
  table : Candidates
  listBuilt : list.Built
  patternBuilt : Pattern.build wanted.size arcs wanted = .ok pattern
  size_arcs_le : arcs.size ≤ maxWord
  tableBuilt : table.Built

namespace Subject

variable {S : Subject} {level : Level} {u v : VertexId} {p q : PatternId}
  {pair : VertexId × PatternId}

/-- The data graph. -/
def graph (S : Subject) : Adjacency := .ofEdges S.list.vertexCount S.list.edges

/-- The table is as large as graph and pattern, there is a label for each vertex, related vertices
have equal labels, and in a full audit for every pattern edge from one there is a data edge from the
other such that the targets have equal labels and are related. -/
structure Passes (S : Subject) (level : Level) : Prop where
  capacity : S.table.capacity = S.list.vertexCount
  labelCount : S.labels.size = S.list.vertexCount
  width : S.table.width = S.wanted.size
  agrees : ∀ u p, S.table.relation u p →
    ∃ label, S.labels[u.toNat]? = some label ∧ S.wanted[p.toNat]? = some label
  covered : level = .full → ∀ u p q, S.table.relation u p → (p, q) ∈ S.arcs →
    ∃ v label, (u, v) ∈ S.list.edges ∧ S.labels[v.toNat]? = some label ∧
      S.wanted[q.toNat]? = some label ∧ S.table.relation v q

/-- Some edge from `u` leads to a vertex that has the candidate `q` and its label. -/
def Meets (S : Subject) (u : VertexId) (q : PatternId) : Prop :=
  ∃ e ∈ S.list.edges.toList,
    e.1 = u ∧ S.labels[e.2.toNat]? = S.wanted[q.toNat]? ∧ S.table.contains e.2 q = true

instance : Decidable (S.Meets u q) := inferInstanceAs (Decidable (∃ e ∈ S.list.edges.toList, _))

/-- How many defects there are: one for each dimension that is wrong, one if the table is not
sealed, one for each pair whose labels differ, and in a full audit, for each other pair, one for
each neighbor of the pattern vertex that is not met. -/
def defects (S : Subject) (level : Level) : Nat :=
  (if S.table.capacity = S.list.vertexCount then 0 else 1) +
  (if S.labels.size = S.list.vertexCount then 0 else 1) +
  (if S.table.width = S.wanted.size then 0 else 1) +
  (if S.table.isSealed then 0 else 1) +
  (S.table.pairSet.filter fun pair => S.labels[pair.1.toNat]? ≠ S.wanted[pair.2.toNat]?).card +
  match level with
  | .fast => 0
  | .full =>
    ∑ pair ∈ S.table.pairSet.filter fun pair =>
        S.labels[pair.1.toNat]? = S.wanted[pair.2.toNat]?,
      (S.pattern.neighborsOf pair.2).countP fun q => ¬ S.Meets pair.1 q

@[simp]
theorem vertexCount_graph : S.graph.vertexCount = S.list.vertexCount :=
  Adjacency.vertexCount_ofEdges

theorem vertexCount_pattern : S.pattern.vertexCount = S.wanted.size :=
  Pattern.vertexCount_build S.patternBuilt

theorem labelOf?_pattern : S.pattern.labelOf? p = S.wanted[p.toNat]? :=
  Pattern.labelOf?_build S.patternBuilt

theorem mem_neighborsOf : q ∈ S.pattern.neighborsOf p ↔ (p, q) ∈ S.arcs :=
  Pattern.mem_neighborsOf_build S.patternBuilt S.size_arcs_le

theorem labelsAgree_iff : labelsAgree S.labels S.pattern pair = true ↔
    S.labels[pair.1.toNat]? = S.wanted[pair.2.toNat]? := by
  rw [labelsAgree, labelOf?_pattern, beq_iff_eq]

theorem isCovered_iff :
    isCovered S.graph S.labels S.pattern S.table u q = true ↔ S.Meets u q := by
  simp only [isCovered, List.any_eq_true, Bool.and_eq_true, beq_iff_eq, labelOf?_pattern, graph,
    Adjacency.mem_outNeighbors_ofEdges]
  constructor
  · rintro ⟨v, ⟨-, hedge⟩, hlabel, hv⟩
    exact ⟨(u, v), Array.mem_toList_iff.2 hedge, rfl, hlabel, hv⟩
  · rintro ⟨⟨w, v⟩, hedge, rfl, hlabel, hv⟩
    have hedge := Array.mem_toList_iff.1 hedge
    exact ⟨v, ⟨(S.listBuilt.lt_vertexCount hedge).1, hedge⟩, hlabel, hv⟩

/-! ## Success -/

private theorem exists_label_iff {a b : Option Label} (ha : a ≠ none) :
    a = b ↔ ∃ label, a = some label ∧ b = some label := by
  obtain ⟨label, rfl⟩ := Option.ne_none_iff_exists'.1 ha
  constructor
  · rintro rfl
    exact ⟨label, rfl, rfl⟩
  · rintro ⟨_, h, h'⟩
    exact h.trans h'.symm

private theorem label_ne_none (hlabels : S.labels.size = S.list.vertexCount)
    (hu : u.toNat < S.list.vertexCount) : S.labels[u.toNat]? ≠ none := by
  rw [Array.getElem?_eq_getElem (hlabels ▸ hu)]
  exact Option.some_ne_none _

/-- If all dimensions are right, no label is missing where labels are compared. -/
theorem labels_eq_iff (hcapacity : S.table.capacity = S.list.vertexCount)
    (hlabels : S.labels.size = S.list.vertexCount) (hp : S.table.relation u p) :
    S.labels[u.toNat]? = S.wanted[p.toNat]? ↔
      ∃ label, S.labels[u.toNat]? = some label ∧ S.wanted[p.toNat]? = some label :=
  exists_label_iff (label_ne_none hlabels (hcapacity ▸ Candidates.lt_capacity hp))

theorem meets_iff (hlabels : S.labels.size = S.list.vertexCount) : S.Meets u q ↔
    ∃ v label, (u, v) ∈ S.list.edges ∧ S.labels[v.toNat]? = some label ∧
      S.wanted[q.toNat]? = some label ∧ S.table.relation v q := by
  constructor
  · rintro ⟨⟨w, v⟩, hedge, rfl, hlabel, hv⟩
    have hedge := Array.mem_toList_iff.1 hedge
    obtain ⟨label, hv', hq⟩ := (exists_label_iff
      (label_ne_none hlabels (S.listBuilt.lt_vertexCount hedge).2)).1 hlabel
    exact ⟨v, label, hedge, hv', hq, hv⟩
  · rintro ⟨v, label, hedge, hv', hq, hv⟩
    exact ⟨(u, v), Array.mem_toList_iff.2 hedge, rfl, hv'.trans hq.symm, hv⟩

/-- There is no error in the dimensions if they are right. -/
theorem shapeFindings_iff :
    (∀ f ∈ shapeFindings S.graph S.labels S.pattern S.table, f.severity ≠ .error) ↔
      S.table.capacity = S.list.vertexCount ∧ S.labels.size = S.list.vertexCount ∧
        S.table.width = S.wanted.size := by
  have hpart : ∀ {a b : Nat} {f : Finding}, f.severity = .error →
      ((∀ f' ∈ if a ≠ b then [f] else [], f'.severity ≠ .error) ↔ a = b) := by
    intro a b f hf
    split
    · simp [*]
    · simp_all
  have hopen : ∀ f ∈ if S.table.isSealed then [] else [Finding.unsealed], f.severity ≠ .error := by
    intro f hf
    split at hf
    · cases hf
    · rw [List.mem_singleton.1 hf]
      exact nofun
  simp only [shapeFindings, List.forall_mem_append, vertexCount_graph, vertexCount_pattern]
  rw [hpart rfl, hpart rfl, hpart rfl, and_iff_left hopen, and_assoc]

/-- **An audit succeeds if and only if its subject passes**, however the dimensions go together. -/
theorem success_iff_passes :
    (ofAdjacency S.graph S.labels S.pattern S.table level).success = true ↔ S.Passes level := by
  have hwf := S.tableBuilt.wf
  rw [success_iff, shapeFindings_iff]
  constructor
  · rintro ⟨⟨hcapacity, hlabels, hwidth⟩, hpairs⟩
    have hagree : ∀ u p, S.table.relation u p → labelsAgree S.labels S.pattern (u, p) = true := by
      intro u p hp
      have hnone := hpairs (u, p) ((mem_pairs hwf).2 hp)
      cases level with
      | fast => exact pairFindings_fast.1 hnone
      | full => exact (pairFindings_full.1 hnone).1
    refine ⟨hcapacity, hlabels, hwidth, fun u p hp => ?_, ?_⟩
    · exact (labels_eq_iff hcapacity hlabels hp).1 (labelsAgree_iff.1 (hagree u p hp))
    · rintro rfl u p q hp hq
      have hcovered := (pairFindings_full.1 (hpairs (u, p) ((mem_pairs hwf).2 hp))).2
      exact (meets_iff hlabels).1 (isCovered_iff.1 (hcovered q (mem_neighborsOf.2 hq)))
  · intro h
    refine ⟨⟨h.capacity, h.labelCount, h.width⟩, ?_⟩
    rintro ⟨u, p⟩ hpair
    have hp : S.table.relation u p := (mem_pairs hwf).1 hpair
    have hagree : labelsAgree S.labels S.pattern (u, p) = true :=
      labelsAgree_iff.2 ((labels_eq_iff h.capacity h.labelCount hp).2 (h.agrees u p hp))
    cases level with
    | fast => exact pairFindings_fast.2 hagree
    | full =>
      refine pairFindings_full.2 ⟨hagree, fun q hq => isCovered_iff.2 ?_⟩
      exact (meets_iff h.labelCount).2 (h.covered rfl u p q hp (mem_neighborsOf.1 hq))

/-! ## The number of findings -/

theorem nodup_pairs {t : Candidates} (h : t.WF) : (pairs t).Nodup := by
  have hlisted : pairs t = t.liveVertices.flatMap fun u => (t.candidatesOf u).map fun p => (u, p) :=
    List.flatMap_map ..
  rw [hlisted, List.nodup_flatMap]
  refine ⟨fun u _ => ?_, ?_⟩
  · exact (Candidates.nodup_candidatesOf h).map fun p q heq => (Prod.mk.inj heq).2
  · refine (Candidates.nodup_liveVertices h).imp fun {u v} hne pair hu hv => hne ?_
    obtain ⟨p, -, rfl⟩ := List.mem_map.1 hu
    obtain ⟨q, -, heq⟩ := List.mem_map.1 hv
    exact (Prod.mk.inj heq).1.symm

theorem toFinset_pairs {t : Candidates} (h : t.WF) : (pairs t).toFinset = t.pairSet := by
  ext ⟨u, p⟩
  rw [List.mem_toFinset, mem_pairs h, Candidates.mem_pairSet h]

theorem length_shapeFindings_eq : (shapeFindings S.graph S.labels S.pattern S.table).length =
    (if S.table.capacity = S.list.vertexCount then 0 else 1) +
    (if S.labels.size = S.list.vertexCount then 0 else 1) +
    (if S.table.width = S.wanted.size then 0 else 1) + if S.table.isSealed then 0 else 1 := by
  have hpart : ∀ {a b : Nat} {f : Finding},
      (if a ≠ b then [f] else []).length = if a = b then 0 else 1 := by
    intro a b f
    split <;> simp_all
  have hopen : (if S.table.isSealed then [] else [Finding.unsealed]).length =
      if S.table.isSealed then 0 else 1 := by
    split <;> rfl
  simp only [shapeFindings, List.length_append, vertexCount_graph, vertexCount_pattern, hpart,
    hopen]

theorem length_pairFindings :
    (pairFindings S.graph S.labels S.pattern S.table level pair).length =
      if S.labels[pair.1.toNat]? = S.wanted[pair.2.toNat]? then
        match level with
        | .fast => 0
        | .full => (S.pattern.neighborsOf pair.2).countP fun q => ¬ S.Meets pair.1 q
      else 1 := by
  have hmiss : ∀ q, (!isCovered S.graph S.labels S.pattern S.table pair.1 q) =
      decide (¬ S.Meets pair.1 q) := by
    intro q
    rw [Bool.eq_iff_iff, Bool.not_eq_true', ← Bool.not_eq_true, isCovered_iff, decide_eq_true_eq]
  simp only [pairFindings, labelsAgree_iff]
  split
  · cases level with
    | fast => rfl
    | full => simp only [List.length_map, List.countP_eq_length_filter, hmiss]
  · rfl

/-- All findings together are as many as there are defects. -/
theorem length_allFindings :
    (allFindings S.graph S.labels S.pattern S.table level).length = S.defects level := by
  have hwf := S.tableBuilt.wf
  have hpairs : ((pairs S.table).flatMap
        (pairFindings S.graph S.labels S.pattern S.table level)).length =
      (S.table.pairSet.filter fun pair =>
        S.labels[pair.1.toNat]? ≠ S.wanted[pair.2.toNat]?).card +
      match level with
      | .fast => 0
      | .full => ∑ pair ∈ S.table.pairSet.filter fun pair =>
            S.labels[pair.1.toNat]? = S.wanted[pair.2.toNat]?,
          (S.pattern.neighborsOf pair.2).countP fun q => ¬ S.Meets pair.1 q := by
    rw [List.length_flatMap, ← List.sum_toFinset _ (nodup_pairs hwf), toFinset_pairs hwf]
    simp only [length_pairFindings]
    rw [Finset.sum_ite, ← Finset.card_eq_sum_ones, Nat.add_comm]
    cases level with
    | fast => rw [Finset.sum_const_zero]
    | full => rfl
  rw [allFindings, List.length_append, length_shapeFindings_eq, hpairs, ← Nat.add_assoc]
  rfl

end Subject

/-- **Every audit of an accepted graph returns**, succeeds exactly if its subject passes, and keeps
as many findings as there are defects, up to 32. -/
theorem ofEdgeList_decides (S : Subject) {g : Adjacency}
    (hg : Adjacency.ofEdgeList S.list = .ok g) (level : Level) :
    ∃ audit, ofEdgeList S.list S.labels S.pattern S.table level = .ok audit ∧
      (audit.success = true ↔ S.Passes level) ∧
      audit.findings.length = min 32 (S.defects level) := by
  have hgraph : g = S.graph := Adjacency.eq_ofEdges_of_ofEdgeList hg
  subst hgraph
  refine ⟨ofAdjacency S.graph S.labels S.pattern S.table level, ?_, S.success_iff_passes, ?_⟩
  · rw [ofEdgeList, hg]
    rfl
  · rw [← S.length_allFindings]
    exact List.length_take

/-- An edge to a vertex without candidates, for a pattern with forty parallel edges. -/
def crowded : Subject where
  list := .ofList [(0, 1)]
  labels := #[1, 1]
  arcs := Array.replicate 40 (0, 1)
  wanted := #[1, 1]
  pattern := ⟨#[0, 40, 40], Array.replicate 40 1, #[1, 1]⟩
  table := ((Candidates.ofCapacity 2 2).add 0 0).2
  listBuilt := .ofList _
  patternBuilt := by decide +kernel
  size_arcs_le := by decide
  tableBuilt := .add _ _ (.ofCapacity 2 2)

/-- With one warning and forty errors, an audit still fails. -/
theorem ofEdgeList_decides_crowded : crowded.defects .full = 41 ∧ ∃ audit,
    ofEdgeList crowded.list crowded.labels crowded.pattern crowded.table .full = .ok audit ∧
      (audit.success = true ↔ crowded.Passes .full) ∧
      audit.findings.length = min 32 (crowded.defects .full) :=
  ⟨by decide +kernel, ofEdgeList_decides crowded rfl .full⟩

end VertexSweep.Audit
