import VertexSweep.Sweep.Window

/-!
# The order of a sweep

The windows of a graph, taken one after the other, hold its vertices in ascending order, each of
them once, whatever the window size (`flatMap_vertices_windows`). This needs ids that are words, so
the graph may have at most 2³² vertices.
-/

namespace VertexSweep

namespace Window

variable {n size start : Nat} {w : Window} {v : VertexId}

theorem mem_vertices : v ∈ w.vertices ↔ w.first ≤ v ∧ v ≤ w.last := by
  have hword : ∀ k, UInt32.ofNat k = v → k < 4294967296 → k = v.toNat := by
    rintro k rfl hk
    exact (UInt32.toNat_ofNat_of_lt' hk).symm
  have hfirst := w.first.toNat_lt
  have hlast := w.last.toNat_lt
  simp only [vertices, List.mem_map, List.mem_range'_1, UInt32.le_iff_toNat_le]
  constructor
  · rintro ⟨k, ⟨hle, hlt⟩, hk⟩
    have hkv := hword k hk (by omega)
    omega
  · rintro ⟨hle, hge⟩
    exact ⟨v.toNat, by omega, UInt32.ofNat_toNat⟩

/-- The vertices of a window ascend. -/
theorem pairwise_vertices : w.vertices.Pairwise (· < ·) := by
  have hlast := w.last.toNat_lt
  have hnumbers : (List.range' w.first.toNat (w.last.toNat + 1 - w.first.toNat)).Pairwise (· < ·) :=
    List.pairwise_lt_range'
  refine List.pairwise_map.2 (hnumbers.imp_of_mem fun hj hk hlt => ?_)
  rw [List.mem_range'_1] at hj hk
  rw [UInt32.lt_iff_toNat_lt, UInt32.toNat_ofNat_of_lt' (by show _ < 4294967296; omega),
    UInt32.toNat_ofNat_of_lt' (by show _ < 4294967296; omega)]
  exact hlt

/-- A window that starts inside the graph holds the next `size` vertices, or those that are left. -/
theorem vertices_startingAt (hn : n ≤ 4294967296) (hsize : 0 < size) (hstart : start < n) :
    (startingAt n size start).vertices =
      (List.range' start (min size (n - start))).map UInt32.ofNat := by
  have hfirst : (UInt32.ofNat start).toNat = start := UInt32.toNat_ofNat_of_lt' (by
    show start < 4294967296
    omega)
  have hlast : (UInt32.ofNat (min (start + size) n - 1)).toNat = min (start + size) n - 1 :=
    UInt32.toNat_ofNat_of_lt' (by
      show min (start + size) n - 1 < 4294967296
      omega)
  simp only [vertices, startingAt, hfirst, hlast]
  rw [show min (start + size) n - 1 + 1 - start = min size (n - start) by omega]

/-- Of windows that hold consecutive vertices the first holds the first of them. -/
theorem split_vertices {ws : List Window} {a len : Nat}
    (h : (w :: ws).flatMap Window.vertices = (List.range' a len).map UInt32.ofNat) :
    ∃ m ≤ len, w.vertices = (List.range' a m).map UInt32.ofNat ∧
      ws.flatMap Window.vertices = (List.range' (a + m) (len - m)).map UInt32.ofNat := by
  rw [List.flatMap_cons, eq_comm, List.map_eq_append_iff] at h
  obtain ⟨_, _, hsplit, hw, hrest⟩ := h
  obtain ⟨m, hm, rfl, rfl⟩ := List.range'_eq_append_iff.1 hsplit
  rw [Nat.mul_one] at hrest
  exact ⟨m, hm, hw.symm, hrest.symm⟩

end Window

/-- The first windows hold the first vertices. -/
private theorem flatMap_vertices_take {n size : Nat} (hn : n ≤ 4294967296) (hsize : 0 < size) :
    ∀ k ≤ (n + size - 1) / size,
      ((List.range k).map fun j => Window.startingAt n size (j * size)).flatMap Window.vertices =
        (List.range (min (k * size) n)).map UInt32.ofNat
  | 0, _ => by simp
  | k + 1, hk => by
    have hend : (k + 1) * size ≤ n + size - 1 := (Nat.le_div_iff_mul_le hsize).1 hk
    have hstart : k * size < n := by
      rw [Nat.succ_mul] at hend
      omega
    rw [List.range_succ, List.map_append, List.flatMap_append,
      flatMap_vertices_take hn hsize k (by omega), List.map_singleton, List.flatMap_singleton,
      Window.vertices_startingAt hn hsize hstart, ← List.map_append]
    congr 1
    rw [List.range_eq_range', List.range_eq_range', Nat.min_eq_left (Nat.le_of_lt hstart)]
    have hjoin := List.range'_append_1 (s := 0) (m := k * size) (n := min size (n - k * size))
    rw [Nat.zero_add] at hjoin
    rw [hjoin, Nat.succ_mul]
    congr 1
    omega

/-- The windows of a graph hold its vertices in ascending order. -/
theorem flatMap_vertices_windows {n size : Nat} (hn : n ≤ 4294967296) :
    (windows n size).flatMap Window.vertices = (List.range n).map UInt32.ofNat := by
  rcases Nat.eq_zero_or_pos n with rfl | hpos
  · by_cases hsize : size = 0
    · simp [windows, hsize]
    · simp [windows, hsize, Nat.div_eq_of_lt (Nat.sub_lt (Nat.pos_of_ne_zero hsize) Nat.one_pos)]
  have covers : ∀ s, 0 < s → n ≤ (n + s - 1) / s * s := by
    intro s hs
    have hlt := Nat.lt_div_mul_add (a := n + s - 1) hs
    omega
  unfold windows
  by_cases hsize : size = 0
  · simp only [hsize, if_pos]
    rw [flatMap_vertices_take hn hpos _ (Nat.le_refl _), Nat.min_eq_right (covers n hpos)]
  · have hs := Nat.pos_of_ne_zero hsize
    simp only [if_neg hsize]
    rw [flatMap_vertices_take hn hs _ (Nat.le_refl _), Nat.min_eq_right (covers size hs)]

end VertexSweep
