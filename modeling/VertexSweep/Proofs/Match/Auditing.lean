import VertexSweep.Match.Audit
import VertexSweep.Proofs.Match.Ending

/-!
# Audits and refinement

An audit keeps only its first findings, but since all of them but one kind are errors, it succeeds
if and only if there is no error at all (`success_iff`). A full audit looks for coverage in the
adjacency and in a list of labels, a refinement on labelled edge slots; `success_full_iff` says
that they agree: a full audit succeeds exactly if a fast one does and a refinement of the table
drops nothing.
-/

namespace VertexSweep.Audit

open Simulation (Problem twoCycle refineAgain refineAgain_yields)

/-! ## Findings -/

section

variable {g : Adjacency} {labels : Array Label} {pattern : Pattern} {table : Candidates}
  {level : Level} {pair : VertexId × PatternId}

private theorem severity_pairFindings {f : Finding}
    (h : f ∈ pairFindings g labels pattern table level pair) : f.severity = .error := by
  unfold pairFindings at h
  split at h
  · cases level with
    | fast => cases h
    | full =>
      obtain ⟨q, -, rfl⟩ := List.mem_map.1 h
      rfl
  · rw [List.mem_singleton] at h
    subst h
    rfl

private theorem length_shapeFindings :
    (shapeFindings g labels pattern table).length < maxFindings := by
  have hle : ∀ {c : Prop} [Decidable c] {f : Finding}, (if c then [f] else []).length ≤ 1 := by
    intro c _ f
    split <;> simp
  have hopen : (if table.isSealed then [] else [Finding.unsealed]).length ≤ 1 := by
    split <;> simp
  have hcapacity := hle (c := table.capacity ≠ g.vertexCount)
    (f := .capacity table.capacity g.vertexCount)
  have hlabels := hle (c := labels.size ≠ g.vertexCount)
    (f := .labelCount labels.size g.vertexCount)
  have hwidth := hle (c := table.width ≠ pattern.vertexCount)
    (f := .width table.width pattern.vertexCount)
  simp only [shapeFindings, List.length_append]
  unfold maxFindings
  omega

/-- No error is lost when only the first findings are kept. -/
private theorem all_take_append {fs gs : List Finding} (hfs : fs.length < maxFindings)
    (hgs : ∀ f ∈ gs, f.severity = .error) :
    ((fs ++ gs).take maxFindings).all (·.severity != .error) = true ↔
      (∀ f ∈ fs, f.severity ≠ .error) ∧ gs = [] := by
  rw [List.take_append, List.take_of_length_le (Nat.le_of_lt hfs), List.all_append,
    Bool.and_eq_true]
  refine and_congr (by simp) ?_
  cases gs with
  | nil => simp
  | cons f gs =>
    obtain ⟨n, hn⟩ := Nat.exists_eq_succ_of_ne_zero (Nat.sub_ne_zero_of_lt hfs)
    rw [hn, List.take_succ_cons, List.all_cons, hgs f List.mem_cons_self]
    simp

/-- **An audit succeeds if there is no error**, in the dimensions or at a pair. -/
theorem success_iff : (ofAdjacency g labels pattern table level).success = true ↔
    (∀ f ∈ shapeFindings g labels pattern table, f.severity ≠ .error) ∧
      ∀ pair ∈ pairs table, pairFindings g labels pattern table level pair = [] := by
  refine (all_take_append length_shapeFindings fun f hf => ?_).trans ?_
  · obtain ⟨pair, -, hpair⟩ := List.mem_flatMap.1 hf
    exact severity_pairFindings hpair
  · rw [List.flatMap_eq_nil_iff]

/-- The warning about a table that was never sealed is not cut off. -/
theorem unsealed_mem_findings :
    .unsealed ∈ (ofAdjacency g labels pattern table level).findings ↔ table.isSealed = false := by
  have hpairs : .unsealed ∉
      (pairs table).flatMap (pairFindings g labels pattern table level) := by
    intro hmem
    obtain ⟨pair, -, hpair⟩ := List.mem_flatMap.1 hmem
    exact nomatch severity_pairFindings hpair
  have hkept : (ofAdjacency g labels pattern table level).findings =
      shapeFindings g labels pattern table ++
        ((pairs table).flatMap (pairFindings g labels pattern table level)).take
          (maxFindings - (shapeFindings g labels pattern table).length) := by
    show (_ ++ _ : List Finding).take maxFindings = _
    rw [List.take_append, List.take_of_length_le (Nat.le_of_lt length_shapeFindings)]
  rw [hkept, List.mem_append, or_iff_left fun hmem => hpairs (List.mem_of_mem_take hmem)]
  cases hsealed : table.isSealed <;> simp [shapeFindings, hsealed]

/-- A table that passes has as many vertices as the graph. -/
theorem capacity_of_success (h : (ofAdjacency g labels pattern table level).success = true) :
    table.capacity = g.vertexCount := by
  refine Classical.not_not.1 fun hne => ?_
  refine (success_iff.1 h).1 (.capacity table.capacity g.vertexCount) ?_ rfl
  simp [shapeFindings, hne]

theorem pairFindings_fast :
    pairFindings g labels pattern table .fast pair = [] ↔
      labelsAgree labels pattern pair = true := by
  unfold pairFindings
  split <;> simp [*]

theorem pairFindings_full : pairFindings g labels pattern table .full pair = [] ↔
    labelsAgree labels pattern pair = true ∧
      ∀ q ∈ pattern.neighborsOf pair.2, isCovered g labels pattern table pair.1 q = true := by
  unfold pairFindings
  split <;> simp [*]

/-- A full audit adds the coverage of the pairs to a fast one. -/
theorem success_full_iff_fast : (ofAdjacency g labels pattern table .full).success = true ↔
    (ofAdjacency g labels pattern table .fast).success = true ∧
      ∀ pair ∈ pairs table, ∀ q ∈ pattern.neighborsOf pair.2,
        isCovered g labels pattern table pair.1 q = true := by
  simp only [success_iff, pairFindings_fast, pairFindings_full, and_assoc, forall_and]

/-- An audit goes through the pairs of the relation. -/
theorem mem_pairs {u : VertexId} {p : PatternId} (h : table.WF) :
    (u, p) ∈ pairs table ↔ table.contains u p = true := by
  simp only [pairs, Candidates.liveSets, List.mem_flatMap, List.mem_map]
  constructor
  · rintro ⟨_, ⟨w, -, rfl⟩, q, hq, heq⟩
    cases heq
    exact (Candidates.mem_candidatesOf h).1 hq
  · intro hp
    exact ⟨_, ⟨u, (Candidates.mem_liveVertices h).2 ((Candidates.isLive_iff h).2 ⟨p, hp⟩), rfl⟩,
      p, (Candidates.mem_candidatesOf h).2 hp, rfl⟩

end

/-! ## Coverage -/

variable {P : Problem} {labels : Array Label} {t : Candidates}

/-- What an audit takes for coverage is coverage, if it is given the labels of the vertices. -/
theorem forall_isCovered_iff {u : VertexId} {p : PatternId}
    (hlabels : ∀ v : VertexId, v.toNat < P.vertexCount → labels[v.toNat]? = some (P.labels v)) :
    (∀ q ∈ P.pattern.neighborsOf p, isCovered P.graph labels P.pattern t u q = true) ↔
      P.Covered t.relation u p := by
  unfold Problem.Covered
  refine forall_congr' fun q => ?_
  rw [Problem.mem_neighborsOf]
  refine imp_congr_right fun _ => ?_
  simp only [isCovered, List.any_eq_true, Bool.and_eq_true, beq_iff_eq, Problem.labelOf?_pattern]
  refine exists_congr fun v => ?_
  rw [Problem.graph, Adjacency.mem_outNeighbors_ofEdges]
  constructor
  · rintro ⟨⟨-, hedge⟩, hlabel, hv⟩
    rw [hlabels v (Problem.isVertex_of_edge hedge).2] at hlabel
    exact ⟨hedge, hlabel.symm, hv⟩
  · rintro ⟨hedge, hagrees, hv⟩
    obtain ⟨hu, hvertex⟩ := Problem.isVertex_of_edge hedge
    exact ⟨⟨hu, hedge⟩, (hlabels v hvertex).trans hagrees.symm, hv⟩

/-- **Audit and refinement agree**: with time for one sweep, a refinement of a table succeeds, and a
full audit of the table does exactly if a fast one does and the refinement drops nothing. -/
theorem success_full_iff {g : Adjacency} (hg : Adjacency.ofEdgeList P.list = .ok g) (ht : t.Built)
    (hlabels : ∀ v : VertexId, v.toNat < P.vertexCount → labels[v.toNat]? = some (P.labels v))
    {settings : Settings} (hceiling : 2 ≤ settings.maxIterations) :
    ∃ found, refineAgain P.list P.pattern t P.labels settings = .ok found ∧
      ((ofAdjacency g labels P.pattern t .full).success = true ↔
        (ofAdjacency g labels P.pattern t .fast).success = true ∧ found.pruned = 0) := by
  obtain ⟨run, hrun, hended⟩ := refineAgain_yields settings ht.wf hg
  have hgraph : g = P.graph := Adjacency.eq_ofEdges_of_ofEdgeList hg
  subst hgraph
  refine ⟨_, hrun, ?_⟩
  rw [success_full_iff_fast]
  refine and_congr_right fun hfast => ?_
  have hcapacity : t.capacity = P.vertexCount :=
    (capacity_of_success hfast).trans Problem.vertexCount_graph
  have hpruned := hended.pruned_eq_zero_iff (UInt32.le_iff_toNat_le.1 hceiling)
  refine Iff.trans ?_ hpruned.symm
  constructor
  · intro hall u p _ hp
    exact (forall_isCovered_iff hlabels).1 (hall (u, p) ((mem_pairs ht.wf).2 hp))
  · rintro hall ⟨u, p⟩ hpair
    have hp := (mem_pairs ht.wf).1 hpair
    exact (forall_isCovered_iff hlabels).2
      (hall u p (hcapacity ▸ Candidates.lt_capacity hp) hp)

/-- A table for `twoCycle` with a pair that has the right labels but is not covered. -/
def uncoveredTable : Candidates :=
  ((((Candidates.ofCapacity 4 2).add 0 0).2.add 1 1).2.add 2 0).2

theorem success_full_iff_uncoveredTable : ∃ found,
    refineAgain twoCycle.list twoCycle.pattern uncoveredTable twoCycle.labels
        { maxIterations := 2, selective := true } = .ok found ∧
      ((ofAdjacency twoCycle.graph #[1, 2, 1, 2] twoCycle.pattern uncoveredTable .full).success =
          true ↔
        (ofAdjacency twoCycle.graph #[1, 2, 1, 2] twoCycle.pattern uncoveredTable .fast).success =
            true ∧
          found.pruned = 0) := by
  refine success_full_iff rfl (.add _ _ (.add _ _ (.add _ _ (.ofCapacity 4 2)))) (fun v hv => ?_)
    (by decide)
  have hcases : v.toNat = 0 ∨ v.toNat = 1 ∨ v.toNat = 2 ∨ v.toNat = 3 := by
    change v.toNat < 4 at hv
    omega
  rcases hcases with h | h | h | h
  · rw [show v = 0 from UInt32.toNat_inj.1 h]
    rfl
  · rw [show v = 1 from UInt32.toNat_inj.1 h]
    rfl
  · rw [show v = 2 from UInt32.toNat_inj.1 h]
    rfl
  · rw [show v = 3 from UInt32.toNat_inj.1 h]
    rfl

end VertexSweep.Audit
