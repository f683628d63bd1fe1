import VertexSweep.Proofs.Match.Pattern

/-!
# The edges of a built pattern

A pattern lists its edges vertex by vertex, and those of one vertex in the order in which they came.
A stable sort by source leaves them in the same order: it keeps the items that share a key as they
are (`filter_mergeSort`), and a sorted list consists of the items with the least key, then those
with the next one, and so on (`eq_flatMap_filter`). `Pattern.Presents` collects what a pattern tells
of its description, and `Pattern.build_decides` says which descriptions are accepted.
-/

namespace VertexSweep

/-! ## Stable sorting -/

section

variable {α : Type} {key : α → Nat} {items : List α} {n k : Nat}

/-- The order by a key. -/
def byKey (key : α → Nat) (x y : α) : Bool := key x ≤ key y

theorem byKey_iff {x y : α} : byKey key x y = true ↔ key x ≤ key y := decide_eq_true_iff

theorem byKey_trans (x y z : α) (hxy : byKey key x y = true) (hyz : byKey key y z = true) :
    byKey key x z = true :=
  byKey_iff.2 (Nat.le_trans (byKey_iff.1 hxy) (byKey_iff.1 hyz))

theorem byKey_total (x y : α) : (byKey key x y || byKey key y x) = true := by
  rw [Bool.or_eq_true, byKey_iff, byKey_iff]
  exact Nat.le_total ..

/-- The items with one key keep their order when all are sorted. -/
theorem filter_mergeSort :
    (items.mergeSort (byKey key)).filter (key · = k) = items.filter (key · = k) := by
  have hsublist : (items.filter (key · = k)).Sublist (items.mergeSort (byKey key)) := by
    apply List.sublist_mergeSort byKey_trans byKey_total
    · rw [List.pairwise_filter]
      apply List.pairwise_of_forall
      intro x y hx hy
      exact byKey_iff.2 (Nat.le_of_eq ((of_decide_eq_true hx).trans (of_decide_eq_true hy).symm))
    · exact List.filter_sublist
  have hfiltered := hsublist.filter (key · = k)
  rw [List.filter_filter] at hfiltered
  simp only [Bool.and_self] at hfiltered
  have hperm := (List.mergeSort_perm items (byKey key)).filter (key · = k)
  exact (hfiltered.eq_of_length hperm.length_eq.symm).symm

/-- In a sorted list the items with the key `k` come right after those with the smaller keys. -/
theorem filter_lt_succ (hsorted : items.Pairwise fun x y => key x ≤ key y) :
    items.filter (key · < k + 1) = items.filter (key · < k) ++ items.filter (key · = k) := by
  induction hsorted with
  | nil => rfl
  | @cons x items hfirst _ ih =>
    rcases Nat.lt_or_ge (key x) k with hlt | hge
    · have hsucc : key x < k + 1 := Nat.lt_succ_of_lt hlt
      have hother : ¬ key x = k := Nat.ne_of_lt hlt
      simp only [List.filter_cons, hsucc, hlt, hother, decide_true, decide_false, if_true,
        Bool.false_eq_true, if_false, ih, List.cons_append]
    · have hall : ∀ y ∈ x :: items, k ≤ key y := by
        intro y hy
        rcases List.mem_cons.1 hy with rfl | hy
        · exact hge
        · exact Nat.le_trans hge (hfirst y hy)
      have hnone : (x :: items).filter (key · < k) = [] := List.filter_eq_nil_iff.2 fun y hy =>
        mt of_decide_eq_true (Nat.not_lt.2 (hall y hy))
      rw [hnone, List.nil_append]
      apply List.filter_congr
      intro y hy
      have hge := hall y hy
      exact decide_eq_decide.2 (by omega)

/-- A sorted list consists of the items with each key. -/
theorem eq_flatMap_filter (hsorted : items.Pairwise fun x y => key x ≤ key y)
    (hkeys : ∀ x ∈ items, key x < n) :
    items = (List.range n).flatMap fun k => items.filter (key · = k) := by
  have hbelow : ∀ k, items.filter (key · < k) =
      (List.range k).flatMap fun k => items.filter (key · = k) := by
    intro k
    induction k with
    | zero => simp
    | succ k ih =>
      rw [filter_lt_succ hsorted, ih, List.range_succ, List.flatMap_append, List.flatMap_singleton]
  rw [← hbelow, List.filter_eq_self.2 fun x hx => decide_eq_true (hkeys x hx)]

theorem mergeSort_eq_flatMap (hkeys : ∀ x ∈ items, key x < n) :
    items.mergeSort (byKey key) = (List.range n).flatMap fun k => items.filter (key · = k) := by
  have hsorted : (items.mergeSort (byKey key)).Pairwise fun x y => key x ≤ key y :=
    (List.pairwise_mergeSort byKey_trans byKey_total items).imp byKey_iff.1
  rw [eq_flatMap_filter hsorted fun x hx => hkeys x (List.mem_mergeSort.1 hx)]
  simp only [filter_mergeSort]

end

/-! ## Patterns -/

namespace Pattern

variable {n : Nat} {arcs : Array (PatternId × PatternId)} {labels : Array Label} {t : Pattern}
  {p q : PatternId}

/-- The pattern has the vertices, edges and labels that were given. -/
structure Presents (t : Pattern) (n : Nat) (arcs : Array (PatternId × PatternId))
    (labels : Array Label) : Prop where
  vertexCount : t.vertexCount = n
  edgeCount : t.edgeCount = arcs.size
  labelOf? : ∀ p, t.labelOf? p = labels[p.toNat]?
  neighborsOf : ∀ p, t.neighborsOf p = (arcs.toList.filter (·.1 = p)).map (·.2)
  outside : ∀ p : PatternId, n ≤ p.toNat → t.neighborsOf p = []
  edges : t.edges = arcs.toList.mergeSort fun e e' => e.1 ≤ e'.1
  packed : PackedRows.build? n arcs = some ⟨t.offsets.map (·.toNat), t.targets⟩

theorem toList_neighborsOf_build (h : build n arcs labels = .ok t) (hsize : arcs.size ≤ maxWord) :
    t.neighborsOf p = (arcs.toList.filter (·.1 = p)).map (·.2) := by
  rw [neighborsOf_build h hsize, Array.toList_map, Array.toList_filter]
  refine congrArg _ (List.filter_congr fun e _ => ?_)
  exact decide_eq_decide.2 UInt32.toNat_inj

/-- A vertex together with its neighbors makes up the edges from it. -/
theorem map_neighborsOf_build (h : build n arcs labels = .ok t) (hsize : arcs.size ≤ maxWord) :
    (t.neighborsOf p).map (p, ·) = arcs.toList.filter (·.1 = p) := by
  rw [toList_neighborsOf_build h hsize, List.map_map]
  refine (List.map_congr_left fun e he => ?_).trans (List.map_id _)
  obtain rfl := of_decide_eq_true (List.mem_filter.1 he).2
  rfl

/-- **The edges of a pattern are those that were given, sorted by their sources.** -/
theorem edges_build (h : build n arcs labels = .ok t) (hsize : arcs.size ≤ maxWord) :
    t.edges = arcs.toList.mergeSort fun e e' => e.1 ≤ e'.1 := by
  obtain ⟨-, hn, hends, -⟩ := build_eq_ok h
  have horder : (fun e e' : PatternId × PatternId => decide (e.1 ≤ e'.1)) = byKey (·.1.toNat) := rfl
  have hkeys : ∀ e ∈ arcs.toList, e.1.toNat < n := fun e he =>
    (hends e (Array.mem_toList_iff.1 he)).1
  rw [edges, vertices, vertexCount_build h, idsBelow, List.flatMap_map, horder,
    mergeSort_eq_flatMap hkeys, List.flatMap_def, List.flatMap_def]
  refine congrArg List.flatten (List.map_congr_left ?_)
  intro k hk
  have hword : (UInt32.ofNat k).toNat = k :=
    UInt32.toNat_ofNat_of_lt' (Nat.lt_succ_of_lt (Nat.lt_of_lt_of_le (List.mem_range.1 hk) hn))
  rw [map_neighborsOf_build h hsize]
  refine List.filter_congr fun e _ => decide_eq_decide.2 ?_
  rw [← UInt32.toNat_inj, hword]

theorem presents_build (h : build n arcs labels = .ok t) (hsize : arcs.size ≤ maxWord) :
    t.Presents n arcs labels where
  vertexCount := vertexCount_build h
  edgeCount := size_targets_build h
  labelOf? _ := labelOf?_build h
  neighborsOf _ := toList_neighborsOf_build h hsize
  outside _ hp := if_pos ((vertexCount_build h).symm ▸ hp)
  edges := edges_build h hsize
  packed := packed_build h hsize

/-- **Which descriptions become patterns, and what these tell of them.** -/
theorem build_decides (n : Nat) (arcs : Array (PatternId × PatternId)) (labels : Array Label)
    (hsize : arcs.size ≤ maxWord) :
    ((∃ t, build n arcs labels = .ok t) ↔
      labels.size = n ∧ n ≤ maxWord ∧ ∀ e ∈ arcs, e.1.toNat < n ∧ e.2.toNat < n) ∧
    ∀ t, build n arcs labels = .ok t → t.Presents n arcs labels :=
  ⟨exists_build_iff, fun _ h => presents_build h hsize⟩

/-- Edges from later vertices that come first, one edge twice, a loop, and vertices without edges. -/
theorem build_decides_shuffled : ∃ t,
    build 4 #[(2, 0), (0, 2), (1, 1), (0, 1), (2, 0), (0, 2)] #[7, 8, 9, 9] = .ok t ∧
      t.neighborsOf 0 = [2, 1, 2] ∧ t.neighborsOf 3 = [] ∧ t.neighborsOf 9 = [] ∧
      t.labelOf? 3 = some 9 ∧ t.labelOf? 4 = none ∧
      t.edges = [(0, 2), (0, 1), (0, 2), (1, 1), (2, 0), (2, 0)] ∧
      ¬ ∃ t, build 2 #[(0, 2)] #[7, 8] = .ok t := by
  obtain ⟨hiff, hpresents⟩ := build_decides 4
    #[(2, 0), (0, 2), (1, 1), (0, 1), (2, 0), (0, 2)] #[7, 8, 9, 9] (by decide)
  obtain ⟨hstray, -⟩ := build_decides 2 #[(0, 2)] #[7, 8] (by decide)
  obtain ⟨t, ht⟩ := hiff.2 ⟨rfl, by decide, by simp⟩
  have h := hpresents t ht
  refine ⟨t, ht, ?_, ?_, h.outside 9 (by decide), h.labelOf? 3, h.labelOf? 4, ?_, ?_⟩
  · rw [h.neighborsOf]
    decide
  · rw [h.neighborsOf]
    decide
  · rw [h.edges]
    simp [List.mergeSort]
  · intro hbuilt
    have hends := (hstray.1 hbuilt).2.2 (0, 2) (Array.mem_singleton.2 rfl)
    exact absurd hends.2 (by decide)

end Pattern

end VertexSweep
