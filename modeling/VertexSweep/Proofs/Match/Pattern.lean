import VertexSweep.Match.Pattern
import VertexSweep.Proofs.Bounds.PackedRows

/-!
# The neighbors in a built pattern

A pattern sorts its edges by counting, in 32-bit words. Whatever the number of edges, a counter, an
offset or a cursor is the number that it stands for modulo 2³² (`getElem?_degrees`,
`getElem?_offsetsOf`, `getElem?_cursors`). With fewer than 2³² edges it is that number, and the
arrays are those that come from sorting without words (`packed_build`). So what stands between the
offsets of a vertex is the row of its targets, in the order of the edges (`neighborsOf_build`).
-/

namespace VertexSweep

namespace Pattern

open PackedRows (sumsFrom below rowOf)

variable {n : Nat} {edges : Array (PatternId × PatternId)} {labels : Array Label} {t : Pattern}
  {p q : PatternId}

/-! ## Counters in words -/

section
variable {es : List (PatternId × PatternId)} {counts : Array UInt32} {k : Nat}

theorem toNat_ofNat_le {m : Nat} (hm : m ≤ maxWord) : (UInt32.ofNat m).toNat = m :=
  UInt32.toNat_ofNat_of_lt' (Nat.lt_succ_of_le hm)

theorem size_foldl_countOne (es : List (PatternId × PatternId)) (counts : Array UInt32) :
    (es.foldl countOne counts).size = counts.size := by
  induction es generalizing counts with
  | nil => rfl
  | cons e es ih => exact (ih _).trans Array.size_modify

/-- A counter moves on by the number of edges with its source. -/
theorem getElem?_foldl_countOne (es : List (PatternId × PatternId)) (counts : Array UInt32)
    (k : Nat) : (es.foldl countOne counts)[k]? =
      counts[k]?.map (· + UInt32.ofNat (rowOf es k).length) := by
  induction es generalizing counts with
  | nil => cases hcount : counts[k]? <;> simp [rowOf, hcount]
  | cons e es ih =>
    rw [List.foldl_cons, ih, countOne, Array.getElem?_modify, PackedRows.rowOf_cons]
    by_cases hkey : e.1.toNat = k
    · rw [if_pos hkey, if_pos hkey, List.singleton_append, List.length_cons, UInt32.ofNat_add,
        UInt32.add_comm _ (UInt32.ofNat 1), Option.map_map]
      exact congrArg (Option.map · counts[k]?) (funext fun count => UInt32.add_assoc ..)
    · rw [if_neg hkey, if_neg hkey, List.nil_append]

theorem getElem?_degrees (hk : k < n) :
    (degrees n edges)[k]? = some (UInt32.ofNat (rowOf edges.toList k).length) := by
  rw [degrees, ← Array.foldl_toList, getElem?_foldl_countOne, Array.getElem?_replicate, if_pos hk,
    Option.map_some, UInt32.zero_add]

theorem toList_degrees : (degrees n edges).toList =
    ((List.range n).map fun k => (rowOf edges.toList k).length).map UInt32.ofNat := by
  apply List.ext_getElem?
  intro k
  rw [Array.getElem?_toList, List.map_map, List.getElem?_map]
  by_cases hk : k < n
  · rw [getElem?_degrees hk, List.getElem?_range hk]
    rfl
  · have hsize : (degrees n edges).size = n := by
      rw [degrees, ← Array.foldl_toList, size_foldl_countOne, Array.size_replicate]
    rw [Array.getElem?_eq_none (by omega), List.getElem?_eq_none (by simpa using hk)]
    rfl

/-- Running sums in words are running sums modulo 2³². -/
theorem runningSums_map (start : Nat) (lengths : List Nat) :
    runningSums (UInt32.ofNat start) (lengths.map UInt32.ofNat) =
      (sumsFrom start lengths).map UInt32.ofNat := by
  induction lengths generalizing start with
  | nil => rfl
  | cons length lengths ih =>
    rw [List.map_cons, runningSums, ← UInt32.ofNat_add, ih, sumsFrom, List.map_cons]

theorem offsetsOf_eq : offsetsOf n edges =
    ((List.range (n + 1)).map fun k => UInt32.ofNat (below edges.toList k)).toArray := by
  have hsums : sumsFrom 0 ((List.range n).map fun k => (rowOf edges.toList k).length).toArray.toList =
      (List.range (n + 1)).map (below edges.toList) :=
    PackedRows.sumsFrom_eq (by simp) fun k hk => by simp [hk]
  rw [offsetsOf, toList_degrees]
  refine congrArg List.toArray ((runningSums_map 0 _).trans ?_)
  rw [List.toList_toArray] at hsums
  rw [hsums, List.map_map]
  rfl

theorem getElem?_offsetsOf (hk : k ≤ n) :
    (offsetsOf n edges)[k]? = some (UInt32.ofNat (below edges.toList k)) := by
  rw [offsetsOf_eq, List.getElem?_toArray, List.getElem?_map,
    List.getElem?_range (Nat.lt_succ_of_le hk), Option.map_some]

/-- Placing moves the cursors as counting does. -/
theorem fst_foldl_place (es : List (PatternId × PatternId)) (cursors : Array UInt32)
    (targets : Array PatternId) :
    (es.foldl place (cursors, targets)).1 = es.foldl countOne cursors := by
  induction es generalizing cursors targets with
  | nil => rfl
  | cons e es ih => exact ih _ _

theorem size_snd_foldl_place (es : List (PatternId × PatternId)) (cursors : Array UInt32)
    (targets : Array PatternId) :
    (es.foldl place (cursors, targets)).2.size = targets.size := by
  induction es generalizing cursors targets with
  | nil => rfl
  | cons e es ih => exact (ih _ _).trans Array.size_setIfInBounds

/-- A cursor stands behind those edges with its source that have been placed. -/
theorem getElem?_cursors (done : List (PatternId × PatternId)) (hk : k < n) :
    (done.foldl place (unfilled n edges)).1[k]? =
      some (UInt32.ofNat (below edges.toList k + (rowOf done k).length)) := by
  rw [unfilled, fst_foldl_place, getElem?_foldl_countOne, Array.getElem?_extract,
    if_pos (by simpa [offsetsOf_eq] using hk), Nat.zero_add, getElem?_offsetsOf (Nat.le_of_lt hk),
    Option.map_some, UInt32.ofNat_add]

end

/-! ## What a description becomes -/

/-- What an accepted description of a pattern satisfies, and the pattern that it describes. -/
theorem build_eq_ok (h : build n edges labels = .ok t) :
    labels.size = n ∧ n ≤ maxWord ∧ (∀ e ∈ edges, e.1.toNat < n ∧ e.2.toNat < n) ∧
      t = { offsets := offsetsOf n edges
            targets := (edges.foldl place (unfilled n edges)).2
            labels } := by
  unfold build at h
  split at h
  · cases h
  rename_i hcount
  split at h
  · cases h
  rename_i hlarge
  split at h
  · cases h
  rename_i hstray
  cases h
  refine ⟨Classical.not_not.1 hcount, Nat.not_lt.1 hlarge, fun e he => ?_, rfl⟩
  have hnone := Array.findSome?_eq_none_iff.1 hstray e he
  unfold strayEnd? at hnone
  split at hnone
  · cases hnone
  split at hnone
  · cases hnone
  omega

/-- Which descriptions are accepted: there is a label for every vertex, the vertices are numbered by
words, and both ends of every edge are vertices. -/
theorem exists_build_iff : (∃ t, build n edges labels = .ok t) ↔
    labels.size = n ∧ n ≤ maxWord ∧ ∀ e ∈ edges, e.1.toNat < n ∧ e.2.toNat < n := by
  constructor
  · intro ⟨t, h⟩
    obtain ⟨hcount, hlarge, hends, -⟩ := build_eq_ok h
    exact ⟨hcount, hlarge, hends⟩
  · intro ⟨hcount, hlarge, hends⟩
    have hnone : edges.findSome? (strayEnd? n) = none := by
      apply Array.findSome?_eq_none_iff.2
      intro e he
      obtain ⟨hsource, htarget⟩ := hends e he
      rw [strayEnd?, if_neg (Nat.not_le.2 hsource), if_neg (Nat.not_le.2 htarget)]
    unfold build
    rw [if_neg (fun hne => hne hcount), if_neg (Nat.not_lt.2 hlarge), hnone]
    exact ⟨_, rfl⟩

theorem vertexCount_build (h : build n edges labels = .ok t) : t.vertexCount = n := by
  obtain ⟨hcount, -, -, rfl⟩ := build_eq_ok h
  exact hcount

theorem labelOf?_build (h : build n edges labels = .ok t) : t.labelOf? p = labels[p.toNat]? := by
  obtain ⟨-, -, -, rfl⟩ := build_eq_ok h
  rfl

theorem offsets_build (h : build n edges labels = .ok t) : t.offsets = offsetsOf n edges := by
  obtain ⟨-, -, -, rfl⟩ := build_eq_ok h
  rfl

theorem targets_build (h : build n edges labels = .ok t) :
    t.targets = (edges.toList.foldl place (unfilled n edges)).2 := by
  obtain ⟨-, -, -, rfl⟩ := build_eq_ok h
  exact congrArg Prod.snd (Array.foldl_toList place).symm

/-- There are as many targets as edges. -/
theorem size_targets_build (h : build n edges labels = .ok t) : t.targets.size = edges.size := by
  rw [targets_build h, unfilled, size_snd_foldl_place, Array.size_replicate]

/-! ## Fewer than 2³² edges -/

/-- Counting one more edge does not wrap the counter of its source. -/
theorem map_toNat_countOne {counts : Array UInt32} {e : PatternId × PatternId} {count : UInt32}
    (hcount : counts[e.1.toNat]? = some count) (hlt : count.toNat < maxWord) :
    (countOne counts e).map (·.toNat) =
      (counts.map (·.toNat)).setIfInBounds e.1.toNat (count.toNat + 1) := by
  have hnext : (count + 1).toNat = count.toNat + 1 := by
    rw [UInt32.toNat_add, UInt32.toNat_one]
    unfold maxWord at hlt
    omega
  apply Array.ext_getElem?
  intro k
  rw [Array.getElem?_map, countOne, Array.getElem?_modify]
  by_cases hkey : e.1.toNat = k
  · subst hkey
    rw [if_pos rfl, hcount, Array.getElem?_setIfInBounds_self_of_lt, Option.map_some,
      Option.map_some, hnext]
    rw [Array.size_map]
    exact (Array.getElem?_eq_some_iff.1 hcount).1
  · rw [if_neg hkey, Array.getElem?_setIfInBounds_ne hkey, Array.getElem?_map]

/-- Where there is room for no more targets than there are words, a cursor in words does as well as
one without. -/
theorem place?_eq_some {cursors : Array UInt32} {targets : Array PatternId}
    {e : PatternId × PatternId} {placed : Array Nat × Array PatternId}
    (hsize : targets.size ≤ maxWord)
    (h : PackedRows.place? (cursors.map (·.toNat), targets) e = some placed) :
    placed = ((place (cursors, targets) e).1.map (·.toNat), (place (cursors, targets) e).2) := by
  obtain ⟨slot, hslot, h⟩ := Option.bind_eq_some_iff.1 h
  rw [Array.getElem?_map] at hslot
  obtain ⟨cursor, hcursor, rfl⟩ := Option.map_eq_some_iff.1 hslot
  split at h
  · rename_i hlt
    rw [← Option.some.inj h, place, map_toNat_countOne hcursor (Nat.lt_of_lt_of_le hlt hsize),
      Array.getD_eq_getD_getElem?, hcursor]
    rfl
  · cases h

theorem foldlM_place?_eq_some {cursors : Array UInt32} {targets : Array PatternId}
    {placed : Array Nat × Array PatternId} (es : List (PatternId × PatternId))
    (hsize : targets.size ≤ maxWord)
    (h : es.foldlM PackedRows.place? (cursors.map (·.toNat), targets) = some placed) :
    placed.2 = (es.foldl place (cursors, targets)).2 := by
  induction es generalizing cursors targets with
  | nil => exact congrArg Prod.snd (Option.some.inj h).symm
  | cons e es ih =>
    rw [List.foldlM_cons] at h
    obtain ⟨next, hnext, hrest⟩ := Option.bind_eq_some_iff.1 h
    rw [place?_eq_some hsize hnext] at hrest
    exact ih (Nat.le_trans (Nat.le_of_eq Array.size_setIfInBounds) hsize) hrest

/-- Words are wide enough for the offsets. -/
theorem map_toNat_offsetsOf (hsize : edges.size ≤ maxWord) : (offsetsOf n edges).map (·.toNat) =
    ((List.range (n + 1)).map (below edges.toList)).toArray := by
  rw [offsetsOf_eq, List.map_toArray, List.map_map]
  refine congrArg List.toArray (List.map_congr_left fun k _ => ?_)
  exact toNat_ofNat_le (Nat.le_trans (PackedRows.below_le_length edges.toList k) hsize)

/-- **A pattern holds its edges sorted by counting**, unless there are too many for words. -/
theorem packed_build (h : build n edges labels = .ok t) (hsize : edges.size ≤ maxWord) :
    PackedRows.build? n edges = some ⟨t.offsets.map (·.toNat), t.targets⟩ := by
  have hkeys : ∀ e ∈ edges, e.1.toNat < n := fun e he => ((build_eq_ok h).2.2.1 e he).1
  obtain ⟨cursors, hfold⟩ := PackedRows.exists_foldlM_place? hkeys
  rw [← map_toNat_offsetsOf hsize, ← Array.map_extract] at hfold
  have hplaced := foldlM_place?_eq_some _ (by simpa using hsize) hfold
  rw [PackedRows.build?_eq hkeys, offsets_build h, map_toNat_offsetsOf hsize, targets_build h]
  exact congrArg some (congrArg (PackedRows.mk _) hplaced)

/-- The offsets of a vertex cut its neighbors out of the targets. -/
theorem row?_build (h : build n edges labels = .ok t) (hsize : edges.size ≤ maxWord)
    (hp : p.toNat < n) : PackedRows.row? ⟨t.offsets.map (·.toNat), t.targets⟩ p.toNat =
      some ((edges.filter (·.1.toNat == p.toNat)).map (·.2)) := by
  obtain ⟨rows, hrows, -, hrow⟩ :=
    PackedRows.exists_build? n edges fun e he => ((build_eq_ok h).2.2.1 e he).1
  cases hrows.symm.trans (packed_build h hsize)
  exact hrow _ hp

/-- Where a row is cut out, there are offsets to cut it out. -/
theorem exists_cut {row : Array PatternId}
    (h : PackedRows.row? ⟨t.offsets.map (·.toNat), t.targets⟩ p.toNat = some row) :
    ∃ first last, t.offsets[p.toNat]? = some first ∧ t.offsets[p.toNat + 1]? = some last ∧
      (first.toNat ≤ last.toNat ∧ last.toNat ≤ t.targets.size) ∧
      t.targets.extract first.toNat last.toNat = row := by
  simp only [PackedRows.row?, Array.getElem?_map, Option.bind_eq_bind, Option.bind_eq_some_iff,
    Option.map_eq_some_iff] at h
  obtain ⟨_, ⟨first, hfirst, rfl⟩, _, ⟨last, hlast, rfl⟩, hcut⟩ := h
  split at hcut
  · rename_i hbounds
    exact ⟨first, last, hfirst, hlast, hbounds, Option.some.inj hcut⟩
  · cases hcut

/-- **The neighbors of `p` are the targets of the edges from `p`**, in their order. -/
theorem neighborsOf_build (h : build n edges labels = .ok t) (hsize : edges.size ≤ maxWord) :
    t.neighborsOf p = ((edges.filter (·.1.toNat == p.toNat)).map (·.2)).toList := by
  unfold neighborsOf
  rw [vertexCount_build h]
  split
  · rename_i hp
    have hnone : edges.filter (·.1.toNat == p.toNat) = #[] := by
      refine Array.filter_eq_empty_iff.2 fun e he => ?_
      have hend := ((build_eq_ok h).2.2.1 e he).1
      simp only [beq_iff_eq]
      omega
    simp [hnone]
  · rename_i hp
    obtain ⟨first, last, hfirst, hlast, -, hcut⟩ := exists_cut (row?_build h hsize (Nat.not_le.1 hp))
    rw [Array.getD_eq_getD_getElem?, Array.getD_eq_getD_getElem?, hfirst, hlast]
    exact congrArg Array.toList hcut

theorem mem_neighborsOf_build (h : build n edges labels = .ok t) (hsize : edges.size ≤ maxWord) :
    q ∈ t.neighborsOf p ↔ (p, q) ∈ edges := by
  simp only [neighborsOf_build h hsize, Array.mem_toList_iff, Array.mem_map, Array.mem_filter,
    beq_iff_eq, UInt32.toNat_inj]
  constructor
  · rintro ⟨⟨_, _⟩, ⟨hmem, rfl⟩, rfl⟩
    exact hmem
  · exact fun hmem => ⟨(p, q), ⟨hmem, rfl⟩, rfl⟩

/-! ## Ids -/

theorem mem_idsBelow (hn : n ≤ maxWord) : p ∈ idsBelow n ↔ p.toNat < n := by
  simp only [idsBelow, List.mem_map, List.mem_range]
  constructor
  · rintro ⟨k, hk, rfl⟩
    rwa [toNat_ofNat_le (Nat.le_trans (Nat.le_of_lt hk) hn)]
  · exact fun hp => ⟨p.toNat, hp, UInt32.ofNat_toNat⟩

theorem pairwise_idsBelow (hn : n ≤ maxWord) :
    (idsBelow n).Pairwise fun p q => p.toNat < q.toNat := by
  have hword : ∀ k ∈ List.range n, (UInt32.ofNat k).toNat = k := fun k hk =>
    toNat_ofNat_le (Nat.le_trans (Nat.le_of_lt (List.mem_range.1 hk)) hn)
  rw [idsBelow, List.pairwise_map]
  refine List.pairwise_lt_range.imp_of_mem fun hj hk hlt => ?_
  rwa [hword _ hj, hword _ hk]

theorem nodup_idsBelow (hn : n ≤ maxWord) : (idsBelow n).Nodup :=
  (pairwise_idsBelow hn).imp fun {p q} hlt (heq : p = q) => by
    subst heq
    exact Nat.lt_irrefl _ hlt

/-- The vertices of a pattern are the ids that have a label. -/
theorem mem_vertices (hn : t.vertexCount ≤ maxWord) : p ∈ t.vertices ↔ p.toNat < t.vertexCount :=
  mem_idsBelow hn

end Pattern

end VertexSweep
