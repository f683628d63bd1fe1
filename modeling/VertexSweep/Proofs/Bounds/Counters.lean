import VertexSweep.Proofs.Bounds.Tables

/-!
# How many edges a pattern has room for

A pattern is built whatever the number of its edges is, but it is sorted with counters that are
words. They stand for what they count just if there are fewer than 2³² edges (`Pattern.Exact`), and
a clique reaches that many at 65537 vertices. Beyond, the offsets run backwards, and later edges
are put over earlier ones.
-/

namespace VertexSweep

namespace Pattern

open PackedRows (below rowOf)

variable {n : Nat} {edges : Array (PatternId × PatternId)} {labels : Array Label} {t : Pattern}
  {p : PatternId}

/-! ## Exact counters -/

/-- No counter wraps around while a pattern is built, and the pattern is what it is meant to be. -/
structure Exact (n : Nat) (edges : Array (PatternId × PatternId)) (t : Pattern) : Prop where
  /-- When the edges in `done` are counted, a degree is the number of those with its source. -/
  degree : ∀ done rest k, edges.toList = done ++ rest → k < n →
    (done.foldl countOne (Array.replicate n 0))[k]?.map (·.toNat) = some (rowOf done k).length
  /-- A running sum is the number of edges with a lower source. -/
  offset : ∀ k, k ≤ n → t.offsets[k]?.map (·.toNat) = some (below edges.toList k)
  /-- When the edges in `done` are placed, a cursor stands behind those with its source. -/
  cursor : ∀ done rest k, edges.toList = done ++ rest → k < n →
    (done.foldl place (unfilled n edges)).1[k]?.map (·.toNat) =
      some (below edges.toList k + (rowOf done k).length)
  ascending : t.offsets.toList.Pairwise (· ≤ ·)
  last : t.offsets.back?.map (·.toNat) = some edges.size
  neighbors : ∀ p, t.neighborsOf? p = some (rowOf edges.toList p.toNat)

theorem length_rowOf_le (done : List (PatternId × PatternId)) (k : Nat) :
    (rowOf done k).length ≤ done.length := by
  rw [rowOf, List.length_map]
  exact List.length_filter_le ..

/-- The edges that are placed and those in front of their row are not more than all. -/
theorem below_add_length_le {done rest : List (PatternId × PatternId)} {k : Nat}
    (hedges : edges.toList = done ++ rest) :
    below edges.toList k + (rowOf done k).length ≤ edges.size := by
  have hnext := PackedRows.below_succ edges.toList k
  have hall := PackedRows.below_le_length edges.toList (k + 1)
  rw [show rowOf edges.toList k = rowOf done k ++ rowOf rest k by
    rw [hedges, PackedRows.rowOf_append], List.length_append] at hnext
  rw [Array.length_toList] at hall
  omega

theorem back?_offsetsOf :
    (offsetsOf n edges).back? = some (UInt32.ofNat (below edges.toList n)) := by
  have hsize : (offsetsOf n edges).size = n + 1 := by simp [offsetsOf_eq]
  rw [Array.back?, hsize, Nat.add_sub_cancel, getElem?_offsetsOf (Nat.le_refl n)]

theorem below_eq_size (h : build n edges labels = .ok t) : below edges.toList n = edges.size := by
  rw [PackedRows.below_eq_length, Array.length_toList]
  exact fun e he => ((build_eq_ok h).2.2.1 e (Array.mem_toList_iff.1 he)).1

theorem neighborsOf_eq_rowOf (h : build n edges labels = .ok t) (hsize : edges.size ≤ maxWord) :
    t.neighborsOf p = rowOf edges.toList p.toNat := by
  rw [neighborsOf_build h hsize, rowOf, Array.toList_map, Array.toList_filter]

/-- **Words are wide enough for fewer than 2³² edges.** -/
theorem exact_of_size_le (h : build n edges labels = .ok t) (hsize : edges.size ≤ maxWord) :
    Exact n edges t where
  degree done rest k hedges hk := by
    have hdone : done.length ≤ edges.size := by
      rw [← Array.length_toList, hedges, List.length_append]
      exact Nat.le_add_right ..
    rw [getElem?_foldl_countOne, Array.getElem?_replicate, if_pos hk, Option.map_some,
      UInt32.zero_add, Option.map_some,
      toNat_ofNat_le (Nat.le_trans (length_rowOf_le ..) (Nat.le_trans hdone hsize))]
  offset k hk := by
    have hbelow := PackedRows.below_le_length edges.toList k
    rw [offsets_build h, getElem?_offsetsOf hk, Option.map_some,
      toNat_ofNat_le (Nat.le_trans hbelow hsize)]
  cursor done rest k hedges hk := by
    rw [getElem?_cursors done hk, Option.map_some,
      toNat_ofNat_le (Nat.le_trans (below_add_length_le hedges) hsize)]
  ascending := by
    have hword : ∀ k, (UInt32.ofNat (below edges.toList k)).toNat = below edges.toList k :=
      fun k => toNat_ofNat_le (Nat.le_trans (PackedRows.below_le_length edges.toList k) hsize)
    rw [offsets_build h, offsetsOf_eq, List.toList_toArray, List.pairwise_map]
    refine List.pairwise_lt_range.imp fun {j k} hlt => UInt32.le_iff_toNat_le.2 ?_
    rw [hword, hword]
    exact PackedRows.below_mono _ (Nat.le_of_lt hlt)
  last := by
    rw [offsets_build h, back?_offsetsOf, below_eq_size h, Option.map_some, toNat_ofNat_le hsize]
  neighbors p := by
    rw [neighborsOf?_eq h hsize, neighborsOf_eq_rowOf h hsize]

/-- The last running sum is a word, so it is not the number of more edges than that. -/
theorem Exact.size_le (h : Exact n edges t) : edges.size ≤ maxWord := by
  obtain ⟨last, -, hlast⟩ := Option.map_eq_some_iff.1 h.last
  rw [← hlast]
  exact Nat.le_of_lt_succ last.toNat_lt

/-! ## The edges of a clique -/

theorem length_idsBelow (n : Nat) : (idsBelow n).length = n := by
  rw [idsBelow, List.length_map, List.length_range]

theorem length_filter_ne (hn : n ≤ maxWord) (hp : p.toNat < n) :
    ((idsBelow n).filter (· ≠ p)).length = n - 1 := by
  have herase : (idsBelow n).filter (· ≠ p) = (idsBelow n).erase p := by
    rw [(nodup_idsBelow hn).erase_eq_filter]
    refine List.filter_congr fun q _ => ?_
    by_cases hq : q = p <;> simp [hq]
  rw [herase, List.length_erase_of_mem ((mem_idsBelow hn).2 hp), length_idsBelow]

theorem length_flatMap_of_forall {α β : Type} {f : α → List β} {m : Nat} {xs : List α}
    (h : ∀ x ∈ xs, (f x).length = m) : (xs.flatMap f).length = xs.length * m := by
  rw [List.length_flatMap, List.map_congr_left h, List.map_const', List.sum_replicate_nat]

theorem size_cliqueEdges (hn : n ≤ maxWord) : (cliqueEdges n).size = n * (n - 1) := by
  rw [cliqueEdges, List.size_toArray, length_flatMap_of_forall (m := n - 1), length_idsBelow]
  intro p hp
  rw [List.length_map, length_filter_ne hn ((mem_idsBelow hn).1 hp)]

/-- Both ends of an edge of a clique are vertices. -/
theorem ends_cliqueEdges (hn : n ≤ maxWord) {e : PatternId × PatternId}
    (he : e ∈ cliqueEdges n) : e.1.toNat < n ∧ e.2.toNat < n := by
  simp only [cliqueEdges, List.mem_toArray, List.mem_flatMap, List.mem_map, List.mem_filter,
    mem_idsBelow hn] at he
  obtain ⟨p, hp, q, ⟨hq, -⟩, rfl⟩ := he
  exact ⟨hp, hq⟩

theorem exists_clique_iff : (∃ t, clique labels = .ok t) ↔ labels.size ≤ maxWord := by
  rw [clique, exists_build_iff]
  constructor
  · exact fun h => h.2.1
  · exact fun hn => ⟨rfl, hn, fun e he => ends_cliqueEdges hn he⟩

/-- The edges with one source, out of edges that are listed source by source. -/
theorem rowOf_flatMap {ids : List PatternId} {row : PatternId → List PatternId}
    (hids : ids.Nodup) (hp : p ∈ ids) :
    rowOf (ids.flatMap fun p => (row p).map fun q => (p, q)) p.toNat = row p := by
  have hself : rowOf ((row p).map fun q => (p, q)) p.toNat = row p := by
    rw [rowOf, List.filter_eq_self.2 (by simp), List.map_map]
    exact List.map_id _
  have hother : ∀ ids' : List PatternId, p ∉ ids' →
      rowOf (ids'.flatMap fun p => (row p).map fun q => (p, q)) p.toNat = [] := by
    intro ids' hnot
    rw [rowOf, List.map_eq_nil_iff, List.filter_eq_nil_iff]
    intro e he
    obtain ⟨q, hq, r, -, rfl⟩ : ∃ q ∈ ids', ∃ r ∈ row q, (q, r) = e := by simpa using he
    simp only [beq_iff_eq, UInt32.toNat_inj]
    exact fun heq => hnot (heq ▸ hq)
  obtain ⟨front, back, rfl⟩ := List.append_of_mem hp
  obtain ⟨-, hback, hfront⟩ := List.nodup_append.1 hids
  rw [List.flatMap_append, List.flatMap_cons, PackedRows.rowOf_append, PackedRows.rowOf_append,
    hself, hother front fun hmem => hfront p hmem p List.mem_cons_self rfl,
    hother back (List.nodup_cons.1 hback).1, List.nil_append, List.append_nil]

theorem rowOf_cliqueEdges (hn : n ≤ maxWord) (hp : p.toNat < n) :
    rowOf (cliqueEdges n).toList p.toNat = (idsBelow n).filter (· ≠ p) :=
  rowOf_flatMap (nodup_idsBelow hn) ((mem_idsBelow hn).2 hp)

/-- Neighbors that are cut out of the targets lie between two offsets. -/
theorem exists_cut_of_neighborsOf? {row : List PatternId} (hp : p.toNat < t.vertexCount)
    (h : t.neighborsOf? p = some row) :
    ∃ first last, t.offsets[p.toNat]? = some first ∧ t.offsets[p.toNat + 1]? = some last ∧
      last.toNat = first.toNat + row.length := by
  rw [neighborsOf?, if_neg (Nat.not_le.2 hp)] at h
  obtain ⟨cut, hcut, hrow⟩ := Option.bind_eq_some_iff.1 h
  obtain ⟨first, last, hfirst, hlast, hbounds, hextract⟩ := exists_cut hcut
  refine ⟨first, last, hfirst, hlast, ?_⟩
  rw [← Option.some.inj hrow, Array.length_toList, ← hextract, Array.size_extract]
  omega

/-- If all rows of a clique are cut out right, the offsets are the multiples of their length. -/
theorem offset_eq_mul (h : clique labels = .ok t)
    (hrows : ∀ p : PatternId, p.toNat < labels.size →
      t.neighborsOf? p = some ((idsBelow labels.size).filter (· ≠ p)))
    {k : Nat} (hk : k ≤ labels.size) :
    t.offsets[k]?.map (·.toNat) = some (k * (labels.size - 1)) := by
  have hn : labels.size ≤ maxWord := exists_clique_iff.1 ⟨t, h⟩
  induction k with
  | zero => rw [offsets_build h, getElem?_offsetsOf hk, PackedRows.below_zero, Nat.zero_mul]; rfl
  | succ k ih =>
    have hword : (UInt32.ofNat k).toNat = k := toNat_ofNat_le (Nat.le_trans (Nat.le_of_lt hk) hn)
    have hp : (UInt32.ofNat k).toNat < labels.size := hword.symm ▸ hk
    obtain ⟨first, last, hfirst, hlast, hlength⟩ := exists_cut_of_neighborsOf?
      (Nat.lt_of_lt_of_eq hp (vertexCount_build h).symm) (hrows _ hp)
    have hstart := ih (Nat.le_of_succ_le hk)
    rw [hword] at hfirst hlast
    rw [hfirst, Option.map_some, Option.some.injEq] at hstart
    rw [hlast, Option.map_some, hlength, hstart, length_filter_ne hn hp, Nat.succ_mul]

/-- **A clique has its edges exactly if it has no more than 65536 vertices.** -/
theorem clique_iff (labels : Array Label) :
    (∃ t, clique labels = .ok t ∧ ∀ p : PatternId, p.toNat < labels.size →
        t.neighborsOf? p = some ((idsBelow labels.size).filter (· ≠ p))) ↔
      labels.size ≤ 65536 := by
  constructor
  · rintro ⟨t, h, hrows⟩
    obtain ⟨last, -, hlast⟩ := Option.map_eq_some_iff.1 (offset_eq_mul h hrows (Nat.le_refl _))
    have hlt : labels.size * (labels.size - 1) < 2 ^ 32 := hlast ▸ last.toNat_lt
    rw [← Nat.not_lt]
    intro hlarge
    have hmul : 65537 * 65536 ≤ labels.size * (labels.size - 1) :=
      Nat.mul_le_mul hlarge (Nat.le_sub_one_of_lt hlarge)
    omega
  · intro hsmall
    have hn : labels.size ≤ maxWord := Nat.le_trans hsmall (by decide)
    obtain ⟨t, h⟩ := exists_clique_iff.2 hn
    have hmul : labels.size * (labels.size - 1) ≤ 65536 * 65535 :=
      Nat.mul_le_mul hsmall (Nat.sub_le_sub_right hsmall 1)
    have hsize : (cliqueEdges labels.size).size ≤ maxWord := by
      rw [size_cliqueEdges hn]
      exact Nat.le_trans hmul (by decide)
    refine ⟨t, h, fun p hp => ?_⟩
    rw [(exact_of_size_le h hsize).neighbors p, rowOf_cliqueEdges hn hp]

/-! ## Too many edges -/

/-- In edges that are listed source by source, the next place of a source is the number of edges in
front. -/
theorem below_add_length_eq {done rest : List (PatternId × PatternId)} {e : PatternId × PatternId}
    (hsorted : (done ++ e :: rest).Pairwise fun a b => a.1.toNat ≤ b.1.toNat) :
    below (done ++ e :: rest) e.1.toNat + (rowOf done e.1.toNat).length = done.length := by
  obtain ⟨-, hrest, hdone⟩ := List.pairwise_append.1 hsorted
  have hzero : below (e :: rest) e.1.toNat = 0 := by
    apply List.countP_eq_zero.2
    rintro e' (_ | ⟨_, hmem⟩) <;> simp only [decide_eq_true_eq, Nat.not_lt]
    · exact Nat.le_refl _
    · exact (List.pairwise_cons.1 hrest).1 e' hmem
  have hall : below done (e.1.toNat + 1) = done.length :=
    PackedRows.below_eq_length fun e' he' => Nat.lt_succ_of_le (hdone e' he' e List.mem_cons_self)
  rw [show below (done ++ e :: rest) e.1.toNat = below done e.1.toNat + below (e :: rest) e.1.toNat
    from List.countP_append, hzero, Nat.add_zero, ← PackedRows.below_succ, hall]

section
variable (hsorted : edges.toList.Pairwise fun a b => a.1.toNat ≤ b.1.toNat) {i : Nat}
  {e : PatternId × PatternId}
include hsorted

/-- The edge number `i` is put into the slot number `i`, modulo 2³². -/
theorem snd_place_of_sorted (hi : edges.toList[i]? = some e) (he : e.1.toNat < n) :
    ((edges.toList.take (i + 1)).foldl place (unfilled n edges)).2 =
      ((edges.toList.take i).foldl place (unfilled n edges)).2.setIfInBounds (i % UInt32.size) e.2 := by
  obtain ⟨hlt, rfl⟩ := List.getElem?_eq_some_iff.1 hi
  have hsplit : edges.toList = edges.toList.take i ++ edges.toList[i] :: edges.toList.drop (i + 1) :=
    by rw [← List.drop_eq_getElem_cons, List.take_append_drop]
  have hplace : below edges.toList edges.toList[i].1.toNat +
      (rowOf (edges.toList.take i) edges.toList[i].1.toNat).length = i := by
    have hnumber := below_add_length_eq (hsplit ▸ hsorted)
    rw [← hsplit, List.length_take_of_le (Nat.le_of_lt hlt)] at hnumber
    exact hnumber
  rw [List.take_add_one, hi, Option.toList_some, List.foldl_append, List.foldl_cons, List.foldl_nil,
    place, Array.getD_eq_getD_getElem?, getElem?_cursors _ he, hplace]
  rfl

/-- An edge stays in its slot as long as fewer than 2³² edges come behind it. -/
theorem getElem?_targets_of_sorted (h : build n edges labels = .ok t)
    (hi : edges.toList[i]? = some e) (hbehind : edges.size ≤ i + UInt32.size) :
    t.targets[i % UInt32.size]? = some e.2 := by
  obtain ⟨hlt, rfl⟩ := List.getElem?_eq_some_iff.1 hi
  have hends : ∀ e ∈ edges.toList, e.1.toNat < n := fun e he =>
    ((build_eq_ok h).2.2.1 e (Array.mem_toList_iff.1 he)).1
  have hstays : ∀ m, i < m → m ≤ edges.size →
      ((edges.toList.take m).foldl place (unfilled n edges)).2[i % UInt32.size]? =
        some edges.toList[i].2 := by
    intro m him hm
    induction m, him using Nat.le_induction with
    | base =>
      rw [snd_place_of_sorted hsorted hi (hends _ (List.getElem_mem _)),
        Array.getElem?_setIfInBounds_self_of_lt]
      rw [unfilled, size_snd_foldl_place, Array.size_replicate]
      exact Nat.lt_of_le_of_lt (Nat.mod_le ..) hm
    | succ m him ih =>
      have hmem : m < edges.toList.length := hm
      have hslot : m % UInt32.size ≠ i % UInt32.size := by
        unfold UInt32.size at hbehind ⊢
        omega
      rw [snd_place_of_sorted hsorted (List.getElem?_eq_getElem hmem) (hends _ (List.getElem_mem _)),
        Array.getElem?_setIfInBounds_ne hslot]
      exact ih (Nat.le_of_succ_le hm)
  have hall := hstays edges.size (by simpa using hlt) (Nat.le_refl _)
  rwa [← Array.length_toList, List.take_length, ← targets_build h] at hall

end

/-- The edges of a clique are listed source by source. -/
theorem pairwise_cliqueEdges (hn : n ≤ maxWord) :
    (cliqueEdges n).toList.Pairwise fun a b => a.1.toNat ≤ b.1.toNat := by
  rw [cliqueEdges, List.toList_toArray, List.pairwise_flatMap]
  constructor
  · intro p _
    rw [List.pairwise_map]
    exact List.pairwise_of_forall fun _ _ => Nat.le_refl _
  · refine (pairwise_idsBelow hn).imp fun {p q} hlt => ?_
    simp only [List.mem_map]
    rintro _ ⟨_, -, rfl⟩ _ ⟨_, -, rfl⟩
    exact Nat.le_of_lt hlt

theorem below_cliqueEdges (hn : n ≤ maxWord) {k : Nat} (hk : k ≤ n) :
    below (cliqueEdges n).toList k = k * (n - 1) := by
  induction k with
  | zero => rw [PackedRows.below_zero, Nat.zero_mul]
  | succ k ih =>
    have hword : (UInt32.ofNat k).toNat = k := toNat_ofNat_le (Nat.le_trans (Nat.le_of_lt hk) hn)
    have hp : (UInt32.ofNat k).toNat < n := hword.symm ▸ hk
    have hrow := rowOf_cliqueEdges hn hp
    rw [hword] at hrow
    rw [PackedRows.below_succ, ih (Nat.le_of_succ_le hk), hrow, length_filter_ne hn hp,
      Nat.succ_mul]

/-- The offsets of a clique are the multiples of the length of its rows, modulo 2³². -/
theorem getElem?_offsets_clique (h : clique labels = .ok t) {k : Nat} (hk : k ≤ labels.size) :
    t.offsets[k]? = some (UInt32.ofNat (k * (labels.size - 1))) := by
  have hn : labels.size ≤ maxWord := exists_clique_iff.1 ⟨t, h⟩
  rw [offsets_build h, getElem?_offsetsOf hk, below_cliqueEdges hn hk]

/-- The edges of the last vertex of a clique come last, and first the one to the vertex 0. -/
theorem getElem?_cliqueEdges_last {m : Nat} (hm : m + 1 ≤ maxWord) (hpos : 0 < m) :
    (cliqueEdges (m + 1)).toList[m * m]? = some (UInt32.ofNat m, 0) := by
  have hword : (UInt32.ofNat m).toNat = m := toNat_ofNat_le (Nat.le_of_succ_le hm)
  have hsplit : ∀ row : PatternId → List (PatternId × PatternId),
      (idsBelow (m + 1)).flatMap row = (idsBelow m).flatMap row ++ row (UInt32.ofNat m) := by
    intro row
    rw [idsBelow, List.range_succ, List.map_append, List.map_singleton, List.flatMap_append,
      List.flatMap_singleton]
    rfl
  have hlength : ((idsBelow m).flatMap fun p =>
      ((idsBelow (m + 1)).filter (· ≠ p)).map fun q => (p, q)).length = m * m := by
    rw [length_flatMap_of_forall (m := m), length_idsBelow]
    intro p hp
    have hp := (mem_idsBelow (Nat.le_of_succ_le hm)).1 hp
    rw [List.length_map, length_filter_ne hm (Nat.lt_succ_of_lt hp), Nat.add_sub_cancel]
  have hfirst : ((idsBelow (m + 1)).filter (· ≠ UInt32.ofNat m))[0]? = some 0 := by
    have hzero : (0 : PatternId) ≠ UInt32.ofNat m := by
      intro heq
      rw [← heq] at hword
      exact Nat.ne_of_lt hpos hword
    rw [idsBelow, List.range_succ_eq_map, List.map_cons,
      List.filter_cons_of_pos (by simpa using hzero)]
    rfl
  rw [cliqueEdges, List.toList_toArray, hsplit, List.getElem?_append_right (Nat.le_of_eq hlength),
    hlength, Nat.sub_self, List.getElem?_map, hfirst, Option.map_some]

/-! ## How many edges there is room for -/

/-- **The counters of a pattern stand for what they count exactly if it has fewer than 2³² edges**,
and a clique has all its edges exactly if it has no more than 65536 vertices. -/
theorem counters_exact_iff (h : build n edges labels = .ok t) (wanted : Array Label) :
    (Exact n edges t ↔ edges.size ≤ maxWord) ∧
      ((∃ s, clique wanted = .ok s ∧ ∀ p : PatternId, p.toNat < wanted.size →
          s.neighborsOf? p = some ((idsBelow wanted.size).filter (· ≠ p))) ↔
        wanted.size ≤ 65536) :=
  ⟨⟨Exact.size_le, exact_of_size_le h⟩, clique_iff wanted⟩

theorem counters_exact_iff_crossing :
    ∃ t, build 3 #[(2, 0), (0, 2), (2, 1)] #[7, 8, 7] = .ok t ∧
      Exact 3 #[(2, 0), (0, 2), (2, 1)] t ∧ t.neighborsOf? 2 = some [0, 1] ∧
      ∃ s, clique #[7, 8, 7] = .ok s ∧ s.neighborsOf? 1 = some [0, 2] := by
  have h : build 3 #[(2, 0), (0, 2), (2, 1)] #[7, 8, 7] =
      .ok ⟨#[0, 1, 1, 3], #[2, 0, 1], #[7, 8, 7]⟩ := rfl
  obtain ⟨hexact, hclique⟩ := counters_exact_iff h #[7, 8, 7]
  have hexact := hexact.2 (by decide)
  obtain ⟨s, hs, hrow⟩ := hclique.2 (by decide)
  exact ⟨_, h, hexact, hexact.neighbors 2, s, hs, hrow 1 (by decide)⟩

theorem counters_wrap_largeClique :
    ∃ t, clique (Array.replicate 65537 0) = .ok t ∧ t.edgeCount = 4295032832 ∧
      t.offsets.back? = some 65536 ∧ ¬ t.offsets.toList.Pairwise (· ≤ ·) ∧
      0 ∈ t.neighborsOf 0 ∧ t.neighborsOf? 65535 = none := by
  obtain ⟨labels, hlabels⟩ : ∃ labels : Array Label, labels = Array.replicate 65537 0 := ⟨_, rfl⟩
  have hcount : labels.size = 65537 := by rw [hlabels, Array.size_replicate]
  have hn : (65537 : Nat) ≤ maxWord := by decide
  obtain ⟨t, h⟩ := exists_clique_iff.2 (hcount ▸ hn)
  have hbuild : build 65537 (cliqueEdges 65537) labels = .ok t := by rwa [clique, hcount] at h
  have hsize : (cliqueEdges 65537).size = 4295032832 := size_cliqueEdges hn
  have hvertices : t.vertexCount = 65537 := vertexCount_build hbuild
  have hoffset : ∀ k, k ≤ 65537 → t.offsets[k]? = some (UInt32.ofNat (k * 65536)) := by
    intro k hk
    rw [getElem?_offsets_clique h (hcount ▸ hk), hcount]
  rw [← hlabels]
  refine ⟨t, h, (size_targets_build hbuild).trans hsize, ?_, ?_, ?_, ?_⟩
  · rw [offsets_build hbuild, back?_offsetsOf, below_cliqueEdges hn (Nat.le_refl _)]
    rfl
  · intro hascending
    obtain ⟨hfirst, hfirst'⟩ := Array.getElem?_eq_some_iff.1 (hoffset 65535 (by decide))
    obtain ⟨hlast, hlast'⟩ := Array.getElem?_eq_some_iff.1 (hoffset 65536 (by decide))
    have hle := List.pairwise_iff_getElem.1 hascending 65535 65536 hfirst hlast (by decide)
    rw [Array.getElem_toList, Array.getElem_toList, hfirst', hlast'] at hle
    exact absurd hle (by decide)
  · -- The first edge of the last vertex is put over the first edge of the first vertex.
    have htarget : t.targets[0]? = some 0 :=
      getElem?_targets_of_sorted (pairwise_cliqueEdges hn) hbuild
        (getElem?_cliqueEdges_last (m := 65536) hn (by decide)) (by rw [hsize]; decide)
    have hrow : t.neighborsOf 0 = (t.targets.extract 0 65536).toList := by
      rw [neighborsOf, hvertices, if_neg (by decide), Array.getD_eq_getD_getElem?,
        Array.getD_eq_getD_getElem?, hoffset _ (by decide), hoffset _ (by decide)]
      rfl
    rw [hrow, Array.mem_toList_iff]
    refine Array.mem_of_getElem? (i := 0) ?_
    rw [Array.getElem?_extract, if_pos, htarget]
    rw [size_targets_build hbuild, hsize]
    decide
  · refine Option.eq_none_iff_forall_ne_some.2 fun row hrow => ?_
    obtain ⟨first, last, hfirst, hlast, hlength⟩ :=
      exists_cut_of_neighborsOf? (by rw [hvertices]; decide) hrow
    cases hfirst.symm.trans (hoffset 65535 (by decide))
    cases hlast.symm.trans (hoffset 65536 (by decide))
    have hbackwards : (UInt32.ofNat (65536 * 65536)).toNat <
        (UInt32.ofNat (65535 * 65536)).toNat := by decide
    omega

end Pattern

end VertexSweep
