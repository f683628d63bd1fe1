import VertexSweep.Proofs.Bounds.Views
import VertexSweep.Proofs.Sweep.Order

/-!
# How the vertices are cut

`Cuts` says how windows cut the vertices below `n`: none of them is empty, each begins behind the
one before it, together they hold every vertex once, and all but the last have the size that was
asked for. `windows?` does the arithmetic in machine words, 64 bits for counts and 32 bits for ids,
under tests that no sum and no conversion loses anything. For at most 2³² vertices and any size the
tests pass, and the windows are those of `windows` (`windows_cut`).
-/

namespace VertexSweep

/-- The windows cut the vertices below `n` into pieces of `size`. -/
structure Cuts (n size : Nat) (ws : List Window) : Prop where
  nonempty : ∀ w ∈ ws, w.first ≤ w.last
  ascending : ws.Pairwise fun w w' => w.last < w'.first
  adjacent : ∀ {k w w'}, ws[k]? = some w → ws[k + 1]? = some w' →
    w'.first.toNat = w.last.toNat + 1
  /-- Every vertex below `n` is in the windows, once, and nothing else is. -/
  covers : (ws.flatMap Window.vertices).map (·.toNat) = List.range n
  /-- Only the last window can be shorter. -/
  full : ∀ {k w}, k + 1 < ws.length → ws[k]? = some w → w.vertices.length = size
  single : size = 0 ∨ n ≤ size → ws = if n = 0 then [] else [⟨0, UInt32.ofNat (n - 1)⟩]

/-! ## Arithmetic under tests -/

namespace Window

/-- The sum of two counts, if it is one. -/
def sum? (a b : UInt64) : Option UInt64 :=
  if a.toNat + b.toNat < 18446744073709551616 then some (a + b) else none

/-- The count below `a`, if there is one. -/
def pred? (a : UInt64) : Option UInt64 := if a = 0 then none else some (a - 1)

/-- The vertex whose id is the count `a`, if there is one. -/
def vertex? (a : UInt64) : Option VertexId :=
  if a.toNat ≤ maxWord then some a.toUInt32 else none

/-- The window that starts at `start` and has `size` vertices, or as many as are left of `n`. -/
def startingAt? (n size start : UInt64) : Option Window := do
  let stop ← sum? start size
  let last ← pred? (min stop n)
  return ⟨← vertex? start, ← vertex? last⟩

end Window

/-- The windows of `size` vertices, computed in words. -/
def windows? (n size : UInt64) : Option (List Window) :=
  let size := if size = 0 then n else size
  (List.range ((n.toNat + size.toNat - 1) / size.toNat)).mapM fun k =>
    Window.startingAt? n size (UInt64.ofNat (k * size.toNat))

namespace Window

variable {a b : UInt64} {n size start : Nat}

theorem sum?_eq (h : a.toNat + b.toNat < 18446744073709551616) :
    ∃ c, sum? a b = some c ∧ c.toNat = a.toNat + b.toNat :=
  ⟨a + b, if_pos h, by rw [UInt64.toNat_add, Nat.mod_eq_of_lt h]⟩

theorem pred?_eq (h : 0 < a.toNat) : ∃ c, pred? a = some c ∧ c.toNat = a.toNat - 1 := by
  have hne : a ≠ 0 := by
    rintro rfl
    exact Nat.lt_irrefl 0 h
  refine ⟨a - 1, if_neg hne, UInt64.toNat_sub_of_le _ _ ?_⟩
  rw [UInt64.le_iff_toNat_le]
  exact h

theorem vertex?_eq (h : a.toNat ≤ maxWord) : vertex? a = some (UInt32.ofNat a.toNat) := by
  rw [vertex?, if_pos h]
  refine congrArg some (UInt32.toNat_inj.1 ?_)
  simp

theorem toNat_min (a b : UInt64) : (min a b).toNat = min a.toNat b.toNat := by
  change (if a ≤ b then a else b).toNat = min a.toNat b.toNat
  rcases Nat.le_total a.toNat b.toNat with hle | hle
  · rw [if_pos (UInt64.le_iff_toNat_le.2 hle), Nat.min_eq_left hle]
  · rw [Nat.min_eq_right hle]
    split
    · rename_i hle'
      exact Nat.le_antisymm (UInt64.le_iff_toNat_le.1 hle') hle
    · rfl

theorem toNat_first (hn : n ≤ 4294967296) (hstart : start < n) :
    (startingAt n size start).first.toNat = start :=
  UInt32.toNat_ofNat_of_lt' (Nat.lt_of_lt_of_le hstart hn)

theorem toNat_last (hn : n ≤ 4294967296) :
    (startingAt n size start).last.toNat = min (start + size) n - 1 := by
  refine UInt32.toNat_ofNat_of_lt' (?_ : _ < 4294967296)
  omega

/-- A window that starts at a multiple of its size is computed without a loss. -/
theorem startingAt?_eq {n size : UInt64} {k : Nat} (hn : n.toNat ≤ 4294967296)
    (hsize : 0 < size.toNat) (hstart : k * size.toNat < n.toNat) :
    startingAt? n size (UInt64.ofNat (k * size.toNat)) =
      some (startingAt n.toNat size.toNat (k * size.toNat)) := by
  have hword : (UInt64.ofNat (k * size.toNat)).toNat = k * size.toNat :=
    UInt64.toNat_ofNat_of_lt' (Nat.lt_trans (Nat.lt_of_lt_of_le hstart hn) (by decide))
  -- The first window ends at `size`, which is a word. Any other size is below `n`.
  have hsum : k * size.toNat + size.toNat < 18446744073709551616 := by
    cases k with
    | zero => simpa using size.toNat_lt
    | succ k =>
      have hle : size.toNat ≤ (k + 1) * size.toNat := Nat.le_mul_of_pos_left _ k.succ_pos
      omega
  obtain ⟨stop, hstop, hstopNat⟩ := sum?_eq (hword.symm ▸ hsum)
  rw [hword] at hstopNat
  obtain ⟨last, hlast, hlastNat⟩ := pred?_eq (a := min stop n) (by rw [toNat_min]; omega)
  rw [toNat_min, hstopNat] at hlastNat
  have hfirst : vertex? (UInt64.ofNat (k * size.toNat)) =
      some (UInt32.ofNat (k * size.toNat)) := by
    rw [vertex?_eq (by rw [hword, maxWord]; omega), hword]
  have hend : vertex? last = some (UInt32.ofNat (min (k * size.toNat + size.toNat) n.toNat - 1)) := by
    rw [vertex?_eq (by rw [hlastNat, maxWord]; omega), hlastNat]
  simp only [startingAt?, startingAt, hstop, hlast, hfirst, hend, Option.bind_eq_bind,
    Option.bind_some, Option.pure_def]

end Window

/-! ## The windows one by one -/

variable {n size k : Nat} {w : Window}

theorem windows_zero : windows n 0 = windows n n := by
  unfold windows
  by_cases hn : n = 0 <;> simp [hn]

theorem lt_windowCount_iff (hsize : 0 < size) : k < (n + size - 1) / size ↔ k * size < n := by
  rw [← Nat.succ_le_iff, Nat.le_div_iff_mul_le hsize, Nat.succ_mul]
  omega

theorem getElem?_windows (hsize : 0 < size) :
    (windows n size)[k]? =
      if k * size < n then some (Window.startingAt n size (k * size)) else none := by
  simp only [windows, if_neg (Nat.ne_of_gt hsize), List.getElem?_map]
  split
  · rename_i hk
    rw [List.getElem?_range ((lt_windowCount_iff hsize).2 hk), Option.map_some]
  · rename_i hk
    rw [List.getElem?_eq_none, Option.map_none]
    rw [List.length_range, ← Nat.not_lt]
    exact mt (lt_windowCount_iff hsize).1 hk

theorem exists_of_getElem?_windows (hsize : 0 < size) (hw : (windows n size)[k]? = some w) :
    k * size < n ∧ w = Window.startingAt n size (k * size) := by
  rw [getElem?_windows hsize] at hw
  split at hw
  · rename_i hk
    exact ⟨hk, (Option.some.inj hw).symm⟩
  · cases hw

theorem exists_of_mem_windows (hsize : 0 < size) (hw : w ∈ windows n size) :
    ∃ k, k * size < n ∧ w = Window.startingAt n size (k * size) := by
  obtain ⟨k, hk⟩ := List.mem_iff_getElem?.1 hw
  exact ⟨k, exists_of_getElem?_windows hsize hk⟩

/-- There is one window if it has room for every vertex. -/
theorem windows_of_le (hpos : 0 < n) (hle : n ≤ size) :
    windows n size = [⟨0, UInt32.ofNat (n - 1)⟩] := by
  have hstart : Window.startingAt n size (0 * size) = ⟨0, UInt32.ofNat (n - 1)⟩ := by
    rw [Nat.zero_mul, Window.startingAt, Nat.zero_add, Nat.min_eq_right hle]
    rfl
  apply List.ext_getElem?
  intro k
  rw [getElem?_windows (Nat.lt_of_lt_of_le hpos hle)]
  cases k with
  | zero => rw [if_pos (by rwa [Nat.zero_mul]), hstart, List.getElem?_cons_zero]
  | succ k =>
    have hge : size ≤ (k + 1) * size := Nat.le_mul_of_pos_left size k.succ_pos
    rw [if_neg (by omega), List.getElem?_cons_succ, List.getElem?_nil]

theorem windows_zero_left (size : Nat) : windows 0 size = [] := by
  rcases Nat.eq_zero_or_pos size with rfl | hsize
  · rfl
  · apply List.ext_getElem?
    intro k
    rw [getElem?_windows hsize, if_neg (Nat.not_lt_zero _), List.getElem?_nil]

/-- Windows of a positive size cut the vertices. -/
theorem cuts_windows_of_pos (hn : n ≤ 4294967296) (hsize : 0 < size) :
    Cuts n size (windows n size) where
  nonempty w hw := by
    obtain ⟨k, hk, rfl⟩ := exists_of_mem_windows hsize hw
    rw [UInt32.le_iff_toNat_le, Window.toNat_first hn hk, Window.toNat_last hn]
    omega
  ascending := by
    rw [List.pairwise_iff_getElem]
    intro j k hj hk hlt
    obtain ⟨hstart, hw⟩ := exists_of_getElem?_windows hsize (List.getElem?_eq_getElem hj)
    obtain ⟨hstart', hw'⟩ := exists_of_getElem?_windows hsize (List.getElem?_eq_getElem hk)
    have hle : (j + 1) * size ≤ k * size := Nat.mul_le_mul_right size hlt
    rw [Nat.succ_mul] at hle
    rw [hw, hw', UInt32.lt_iff_toNat_lt, Window.toNat_first hn hstart', Window.toNat_last hn]
    omega
  adjacent {k w w'} hw hw' := by
    obtain ⟨hk, rfl⟩ := exists_of_getElem?_windows hsize hw
    obtain ⟨hk', rfl⟩ := exists_of_getElem?_windows hsize hw'
    rw [Window.toNat_first hn hk', Window.toNat_last hn]
    rw [Nat.succ_mul] at hk' ⊢
    omega
  covers := by
    rw [flatMap_vertices_windows hn, List.map_map]
    refine (List.map_congr_left fun v hv => ?_).trans (List.map_id _)
    exact UInt32.toNat_ofNat_of_lt' (Nat.lt_of_lt_of_le (List.mem_range.1 hv) hn)
  full {k w} hlast hw := by
    obtain ⟨hk, rfl⟩ := exists_of_getElem?_windows hsize hw
    obtain ⟨hk', -⟩ := exists_of_getElem?_windows hsize (List.getElem?_eq_getElem hlast)
    rw [Window.vertices_startingAt hn hsize hk, List.length_map, List.length_range']
    rw [Nat.succ_mul] at hk'
    omega
  single hall := by
    split
    · rename_i hzero
      rw [hzero, windows_zero_left]
    · rename_i hne
      exact windows_of_le (Nat.pos_of_ne_zero hne) (hall.resolve_left (Nat.ne_of_gt hsize))

theorem cuts_windows (hn : n ≤ 4294967296) : Cuts n size (windows n size) := by
  rcases Nat.eq_zero_or_pos size with rfl | hsize
  · rcases Nat.eq_zero_or_pos n with rfl | hpos
    · rw [windows_zero_left]
      exact ⟨by simp, by simp, by simp, rfl, by simp, fun _ => rfl⟩
    · -- Size zero stands for the number of all vertices, which makes one window.
      have hone := windows_of_le hpos (Nat.le_refl n)
      rw [windows_zero]
      exact { cuts_windows_of_pos hn hpos with
        full := fun {k w} hlast _ => by simp [hone] at hlast
        single := fun _ => by rw [hone, if_neg (Nat.ne_of_gt hpos)] }
  · exact cuts_windows_of_pos hn hsize

/-- The arithmetic in words loses nothing. -/
theorem windows?_eq {n size : UInt64} (hn : n.toNat ≤ 4294967296) :
    windows? n size = some (windows n.toNat size.toNat) := by
  have hsize : (if size = 0 then n else size).toNat =
      if size.toNat = 0 then n.toNat else size.toNat := by
    rw [apply_ite UInt64.toNat]
    exact if_congr UInt64.toNat_inj.symm rfl rfl
  simp only [windows?, windows, ← hsize]
  refine mapM_eq_some fun k hk => ?_
  rw [List.mem_range] at hk
  have hpos : 0 < (if size = 0 then n else size).toNat := by
    refine Nat.pos_of_ne_zero fun hzero => ?_
    rw [hzero, Nat.div_zero] at hk
    exact Nat.not_lt_zero k hk
  exact Window.startingAt?_eq hn hpos ((lt_windowCount_iff hpos).1 hk)

/-- **Windows cut the vertices, and the words are wide enough for them.** With up to 2³² vertices,
whatever the size. -/
theorem windows_cut (n size : UInt64) (hn : n.toNat ≤ 4294967296) :
    windows? n size = some (windows n.toNat size.toNat) ∧
      Cuts n.toNat size.toNat (windows n.toNat size.toNat) :=
  ⟨windows?_eq hn, cuts_windows hn⟩

/-- As many vertices as there are words, in two windows and in one. -/
theorem windows_cut_fullWidth : (4294967296 : UInt64).toNat ≤ 4294967296 ∧
    windows? 4294967296 3000000000 = some [⟨0, 2999999999⟩, ⟨3000000000, 4294967295⟩] ∧
    Cuts 4294967296 3000000000 [⟨0, 2999999999⟩, ⟨3000000000, 4294967295⟩] ∧
    windows? 4294967296 18446744073709551615 = some [⟨0, 4294967295⟩] ∧
    Cuts 4294967296 18446744073709551615 [⟨0, 4294967295⟩] := by
  obtain ⟨htwo, hcuts⟩ := windows_cut 4294967296 3000000000 (by decide)
  obtain ⟨hone, hcuts'⟩ := windows_cut 4294967296 18446744073709551615 (by decide)
  exact ⟨by decide, htwo, hcuts, hone, hcuts'⟩

end VertexSweep
