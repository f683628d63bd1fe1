import VertexSweep.Graph.Adjacency

/-!
# Packed rows

Rows of items stand one after the other in one array, and offsets tell where each of them begins.
`PackedRows.build?` sorts keyed items into such rows: it counts the items of every key, sums the
counts up, and puts each item where the cursor of its key stands. Nothing is read or written but
under the eyes of a test, so a counter, a cursor or a place that lies outside its array leaves no
rows at all. `Filling` is the invariant of the last step. If every key is below the number of rows
the tests never fail, and the rows are those of `rowsByKey` (`PackedRows.exists_build?`).
-/

namespace VertexSweep

/-- Rows of items, one after the other. Row `k` begins at offset `k` and ends at offset `k + 1`. -/
structure PackedRows (α : Type) where
  offsets : Array Nat
  items : Array α
deriving DecidableEq, Repr

namespace PackedRows

variable {α : Type}

/-- The row number `k`, if its offsets are there and cut a piece out of the items. -/
def row? (t : PackedRows α) (k : Nat) : Option (Array α) := do
  let first ← t.offsets[k]?
  let last ← t.offsets[k + 1]?
  if first ≤ last ∧ last ≤ t.items.size then some (t.items.extract first last) else none

/-- Counts one more for the key `k`. -/
def countOne? (counts : Array Nat) (k : Nat) : Option (Array Nat) := do
  let count ← counts[k]?
  return counts.setIfInBounds k (count + 1)

/-- How often each key below `n` occurs. -/
def counts? (n : Nat) (items : List (UInt32 × α)) : Option (Array Nat) :=
  items.foldlM (fun counts item => countOne? counts item.1.toNat) (Array.replicate n 0)

/-- Running sums from `start` on. -/
def sumsFrom (start : Nat) : List Nat → List Nat
  | [] => [start]
  | count :: counts => start :: sumsFrom (start + count) counts

/-- Puts an item where the cursor of its key stands, and moves the cursor on. -/
def place? : Array Nat × Array α → UInt32 × α → Option (Array Nat × Array α)
  | (cursors, sorted), (key, x) => do
    let place ← cursors[key.toNat]?
    if place < sorted.size then
      return (cursors.setIfInBounds key.toNat (place + 1), sorted.setIfInBounds place x)
    else none

/-- Sorts keyed items into `n` rows, keeping their order within a row. -/
def build? [Inhabited α] (n : Nat) (items : Array (UInt32 × α)) : Option (PackedRows α) := do
  let counts ← counts? n items.toList
  let offsets := (sumsFrom 0 counts.toList).toArray
  if n ≤ offsets.size then
    let (_, sorted) ← items.toList.foldlM place?
      (offsets.extract 0 n, Array.replicate items.size default)
    return ⟨offsets, sorted⟩
  else none

/-! ## Counting -/

variable {n k j : Nat} {items done rest : List (UInt32 × α)} {item : UInt32 × α}

/-- The items with the key `k`, in their order. -/
def rowOf (items : List (UInt32 × α)) (k : Nat) : List α :=
  (items.filter (·.1.toNat == k)).map (·.2)

/-- How many items have a key below `k`. -/
def below (items : List (UInt32 × α)) (k : Nat) : Nat := items.countP (·.1.toNat < k)

theorem rowOf_append : rowOf (done ++ rest) k = rowOf done k ++ rowOf rest k := by
  simp [rowOf]

theorem rowOf_cons : rowOf (item :: rest) k =
    (if item.1.toNat = k then [item.2] else []) ++ rowOf rest k := by
  by_cases hkey : item.1.toNat = k <;> simp [rowOf, hkey]

@[simp]
theorem below_zero : below items 0 = 0 := by simp [below]

theorem rowOf_concat : rowOf (done ++ [item]) k =
    rowOf done k ++ if item.1.toNat = k then [item.2] else [] := by
  rw [rowOf_append, rowOf_cons]
  exact congrArg _ (List.append_nil _)

theorem below_succ (items : List (UInt32 × α)) (k : Nat) :
    below items (k + 1) = below items k + (rowOf items k).length := by
  induction items with
  | nil => rfl
  | cons item rest ih =>
    simp only [below, List.countP_cons, decide_eq_true_eq] at ih ⊢
    rw [ih, rowOf_cons, List.length_append]
    by_cases hkey : item.1.toNat = k
    · simp [hkey]
      omega
    · have hlt : item.1.toNat < k + 1 ↔ item.1.toNat < k := by omega
      simp only [hkey, hlt, if_false, List.length_nil]
      omega

theorem below_mono (items : List (UInt32 × α)) (hle : k ≤ j) : below items k ≤ below items j := by
  apply List.countP_mono_left
  simp only [decide_eq_true_eq]
  intro item _ hlt
  omega

theorem below_le_length (items : List (UInt32 × α)) (k : Nat) : below items k ≤ items.length :=
  List.countP_le_length

/-- Rows do not overlap. -/
theorem place_ne {a b : Nat} (hne : k ≠ j) (hfirst : below items k ≤ a)
    (hlast : a < below items (k + 1)) (hfirst' : below items j ≤ b)
    (hlast' : b < below items (j + 1)) : a ≠ b := by
  rcases Nat.lt_or_gt_of_ne hne with hlow | hhigh
  · have hrows : below items (k + 1) ≤ below items j := below_mono items hlow
    omega
  · have hrows : below items (j + 1) ≤ below items k := below_mono items hhigh
    omega

/-! ## Sums -/

theorem length_sumsFrom : ∀ (start : Nat) (counts : List Nat),
    (sumsFrom start counts).length = counts.length + 1
  | _, [] => rfl
  | start, count :: counts => congrArg (· + 1) (length_sumsFrom (start + count) counts)

/-- Sums of the increments of `total` are its values. -/
theorem getElem?_sumsFrom {total : Nat → Nat} {counts : List Nat}
    (hcounts : ∀ i count, counts[i]? = some count → total (j + i + 1) = total (j + i) + count)
    (hk : k ≤ counts.length) : (sumsFrom (total j) counts)[k]? = some (total (j + k)) := by
  induction counts generalizing j k with
  | nil =>
    obtain rfl : k = 0 := Nat.le_zero.1 hk
    rfl
  | cons count counts ih =>
    cases k with
    | zero => rfl
    | succ k =>
      have hfirst : total (j + 1) = total j + count := hcounts 0 count rfl
      rw [sumsFrom, List.getElem?_cons_succ, ← hfirst, ih _ (Nat.le_of_succ_le_succ hk)]
      · rw [Nat.add_right_comm, Nat.add_assoc]
      · intro i count hcount
        have hnext := hcounts (i + 1) count (by rwa [List.getElem?_cons_succ])
        rwa [show j + 1 + i = j + (i + 1) by omega]

/-! ## No test fails -/

/-- Counting succeeds if there is a count for every key. -/
theorem exists_counts (done : List (UInt32 × α)) (counts : Array Nat)
    (hkeys : ∀ item ∈ items, item.1.toNat < n)
    (hsize : counts.size = n) (hdone : ∀ k, k < n → counts[k]? = some (rowOf done k).length) :
    ∃ counts', items.foldlM (fun counts item => countOne? counts item.1.toNat) counts =
        some counts' ∧ counts'.size = n ∧
      ∀ k, k < n → counts'[k]? = some (rowOf (done ++ items) k).length := by
  induction items generalizing done counts with
  | nil => exact ⟨counts, rfl, hsize, by simpa using hdone⟩
  | cons item rest ih =>
    have hkey := hkeys item List.mem_cons_self
    have hcount : countOne? counts item.1.toNat =
        some (counts.setIfInBounds item.1.toNat ((rowOf done item.1.toNat).length + 1)) := by
      simp only [countOne?, hdone _ hkey]
      rfl
    obtain ⟨counts', hfold, hcounts'⟩ := ih (done ++ [item])
      (counts.setIfInBounds item.1.toNat ((rowOf done item.1.toNat).length + 1))
      (fun item' hmem => hkeys item' (List.mem_cons_of_mem _ hmem))
      (Array.size_setIfInBounds.trans hsize) (fun k hk => by
        rw [rowOf_concat]
        by_cases hsame : item.1.toNat = k
        · subst hsame
          rw [Array.getElem?_setIfInBounds_self_of_lt (by omega)]
          simp
        · rw [Array.getElem?_setIfInBounds_ne hsame, hdone k hk]
          simp [hsame])
    refine ⟨counts', ?_, ?_⟩
    · rw [List.foldlM_cons, hcount]
      exact hfold
    · simpa using hcounts'

/-- The items in `done` have been placed, each in the next place of its row. -/
structure Filling (n : Nat) (items done : List (UInt32 × α)) (cursors : Array Nat)
    (sorted : Array α) : Prop where
  size_cursors : cursors.size = n
  size_sorted : sorted.size = items.length
  cursor : ∀ k, k < n → cursors[k]? = some (below items k + (rowOf done k).length)
  item : ∀ {k i x}, k < n → (rowOf done k)[i]? = some x → sorted[below items k + i]? = some x

variable {cursors : Array Nat} {sorted : Array α}

/-- The items that are placed, and the next one, fit into their rows. -/
theorem add_length_le (hitems : items = done ++ item :: rest) :
    below items k + (rowOf done k).length + (if item.1.toNat = k then 1 else 0) ≤
      below items (k + 1) := by
  rw [below_succ]
  subst hitems
  rw [rowOf_append, rowOf_cons, List.length_append, List.length_append]
  split
  · rw [List.length_singleton]
    omega
  · rw [List.length_nil]
    omega

/-- The next item is put where no other item stands. -/
theorem Filling.place (h : Filling n items done cursors sorted)
    (hitems : items = done ++ item :: rest) (hkey : item.1.toNat < n) :
    ∃ cursors' sorted', place? (cursors, sorted) item = some (cursors', sorted') ∧
      Filling n items (done ++ [item]) cursors' sorted' := by
  obtain ⟨key, x⟩ := item
  have hroom : ∀ k, below items k + (rowOf done k).length + (if key.toNat = k then 1 else 0) ≤
      below items (k + 1) := fun k => add_length_le hitems
  obtain ⟨place, hplace⟩ : ∃ place, place = below items key.toNat + (rowOf done key.toNat).length :=
    ⟨_, rfl⟩
  have hcursor : cursors[key.toNat]? = some place := hplace ▸ h.cursor _ hkey
  have hlast : place < below items (key.toNat + 1) := by
    have := hroom key.toNat
    rw [if_pos rfl] at this
    omega
  have hlt : place < sorted.size := by
    rw [h.size_sorted]
    exact Nat.lt_of_lt_of_le hlast (below_le_length ..)
  refine ⟨cursors.setIfInBounds key.toNat (place + 1), sorted.setIfInBounds place x, ?_,
    Array.size_setIfInBounds.trans h.size_cursors,
    Array.size_setIfInBounds.trans h.size_sorted, fun k hk => ?_, fun {k i y} hk hi => ?_⟩
  · simp only [place?, hcursor, Option.bind_eq_bind, Option.bind_some, if_pos hlt]
    rfl
  · rw [rowOf_concat]
    by_cases hsame : key.toNat = k
    · subst hsame
      rw [Array.getElem?_setIfInBounds_self_of_lt (by rw [h.size_cursors]; exact hkey), hplace]
      simp [Nat.add_assoc]
    · rw [Array.getElem?_setIfInBounds_ne hsame, h.cursor k hk]
      simp [hsame]
  · rw [rowOf_concat] at hi
    by_cases hsame : key.toNat = k
    · subst hsame
      rw [if_pos rfl] at hi
      -- In the row of the key an item is either one of those before, or the new one at its end.
      by_cases hold : i < (rowOf done key.toNat).length
      · rw [List.getElem?_append_left hold] at hi
        rw [Array.getElem?_setIfInBounds_ne (by omega)]
        exact h.item hk hi
      · obtain rfl : i = (rowOf done key.toNat).length := by
          have hnew := (List.getElem?_eq_some_iff.1 hi).1
          rw [List.length_append, List.length_singleton] at hnew
          omega
        rw [List.getElem?_concat_length] at hi
        rw [← hplace, Array.getElem?_setIfInBounds_self_of_lt hlt]
        exact hi
    · rw [if_neg hsame, List.append_nil] at hi
      have hin := (List.getElem?_eq_some_iff.1 hi).1
      have hthis := hroom k
      have hother : place ≠ below items k + i :=
        place_ne hsame (by omega) hlast (Nat.le_add_right ..) (by omega)
      rw [Array.getElem?_setIfInBounds_ne hother]
      exact h.item hk hi

theorem Filling.foldlM (h : Filling n items done cursors sorted) (hitems : items = done ++ rest)
    (hkeys : ∀ item ∈ rest, item.1.toNat < n) :
    ∃ cursors' sorted', rest.foldlM place? (cursors, sorted) = some (cursors', sorted') ∧
      Filling n items items cursors' sorted' := by
  induction rest generalizing done cursors sorted with
  | nil => exact ⟨cursors, sorted, rfl, by simpa [hitems] using h⟩
  | cons item rest ih =>
    obtain ⟨cursors', sorted', hplace, hnext⟩ := h.place hitems (hkeys item List.mem_cons_self)
    obtain ⟨cursors'', sorted'', hfold, hlast⟩ :=
      ih hnext (by simpa using hitems) fun item' hmem => hkeys item' (List.mem_cons_of_mem _ hmem)
    refine ⟨cursors'', sorted'', ?_, hlast⟩
    rw [List.foldlM_cons, hplace]
    exact hfold

/-- When all items are placed each row stands between its offsets. -/
theorem Filling.extract (h : Filling n items items cursors sorted) (hk : k < n) :
    sorted.extract (below items k) (below items (k + 1)) = (rowOf items k).toArray := by
  have hsucc := below_succ items k
  have hend := below_le_length items (k + 1)
  have hsize : (sorted.extract (below items k) (below items (k + 1))).size =
      (rowOf items k).length := by
    rw [Array.size_extract, h.size_sorted]
    omega
  refine Array.ext (by simpa using hsize) fun i hi hi' => ?_
  have hitem := h.item hk (List.getElem?_eq_getElem (by simpa using hi'))
  rw [Array.getElem_extract, List.getElem_toArray]
  exact (Array.getElem?_eq_some_iff.1 hitem).2

/-- Offsets that are summed up from the counts of all keys say how many items are below each. -/
theorem getElem?_offsets {counts : Array Nat} (hsize : counts.size = n)
    (hcount : ∀ k, k < n → counts[k]? = some (rowOf items k).length) (hk : k ≤ n) :
    (sumsFrom 0 counts.toList).toArray[k]? = some (below items k) := by
  rw [List.getElem?_toArray, ← (below_zero : below items 0 = 0),
    getElem?_sumsFrom (fun i count hi => ?_) (by simpa [hsize] using hk), Nat.zero_add]
  have hlt : i < n := by
    have hlt := (List.getElem?_eq_some_iff.1 hi).1
    rwa [Array.length_toList, hsize] at hlt
  rw [Array.getElem?_toList, hcount i hlt] at hi
  cases hi
  rw [Nat.zero_add]
  exact below_succ ..

/-- The offsets are the numbers of items below each key. -/
theorem sumsFrom_eq {counts : Array Nat} (hsize : counts.size = n)
    (hcount : ∀ k, k < n → counts[k]? = some (rowOf items k).length) :
    sumsFrom 0 counts.toList = (List.range (n + 1)).map (below items) := by
  apply List.ext_getElem?
  intro k
  by_cases hk : k ≤ n
  · rw [← List.getElem?_toArray, getElem?_offsets hsize hcount hk, List.getElem?_map,
      List.getElem?_range (Nat.lt_succ_of_le hk), Option.map_some]
  · rw [List.getElem?_eq_none, List.getElem?_eq_none]
    · simpa using Nat.succ_le_of_lt (Nat.lt_of_not_le hk)
    · simpa [length_sumsFrom, hsize] using Nat.succ_le_of_lt (Nat.lt_of_not_le hk)

/-- Items whose keys have rows are counted, and then all of them are placed. -/
theorem exists_filled [Inhabited α] {items : Array (UInt32 × α)}
    (hkeys : ∀ item ∈ items, item.1.toNat < n) : ∃ cursors sorted,
      build? n items = some ⟨((List.range (n + 1)).map (below items.toList)).toArray, sorted⟩ ∧
      Filling n items.toList items.toList cursors sorted := by
  have hkeys : ∀ item ∈ items.toList, item.1.toNat < n := by simpa using hkeys
  obtain ⟨counts, hcounts, hsize, hcount⟩ := exists_counts [] (Array.replicate n 0) hkeys
    Array.size_replicate (fun k hk => by simp [rowOf, hk])
  have hcounts : counts? n items.toList = some counts := hcounts
  have hoffsets : sumsFrom 0 counts.toList = (List.range (n + 1)).map (below items.toList) :=
    sumsFrom_eq hsize hcount
  have hstart : Filling n items.toList []
      (((List.range (n + 1)).map (below items.toList)).toArray.extract 0 n)
      (Array.replicate items.size default) := by
    refine ⟨by simp, by simp, fun k hk => ?_, fun {k i x} _ hi => ?_⟩
    · rw [← hoffsets, Array.getElem?_extract, if_pos (by simp [length_sumsFrom, hsize]; omega),
        Nat.zero_add, getElem?_offsets hsize hcount (Nat.le_of_lt hk)]
      rfl
    · simp [rowOf] at hi
  obtain ⟨cursors, sorted, hfold, hfilled⟩ := hstart.foldlM rfl hkeys
  refine ⟨cursors, sorted, ?_, hfilled⟩
  simp only [build?, hcounts, hoffsets, Option.bind_eq_bind, Option.bind_some, hfold]
  rw [if_pos (by simp)]
  rfl

/-- **Items whose keys have rows are sorted without a fault**, and every row holds the items with
its key. -/
theorem exists_build? [Inhabited α] (n : Nat) (items : Array (UInt32 × α))
    (hkeys : ∀ item ∈ items, item.1.toNat < n) :
    ∃ t, build? n items = some t ∧ t.offsets.size = n + 1 ∧
      ∀ k, k < n → t.row? k = some ((items.filter (·.1.toNat == k)).map (·.2)) := by
  obtain ⟨cursors, sorted, hbuild, hfilled⟩ := exists_filled hkeys
  refine ⟨_, hbuild, by simp, fun k hk => ?_⟩
  have hoffset : ∀ k, k ≤ n → ((List.range (n + 1)).map (below items.toList)).toArray[k]? =
      some (below items.toList k) := fun k hk => by
    simp [List.getElem?_range (Nat.lt_succ_of_le hk)]
  have hmono := below_mono items.toList (Nat.le_succ k)
  have hend := below_le_length items.toList (k + 1)
  have hcut : below items.toList k ≤ below items.toList (k + 1) ∧
      below items.toList (k + 1) ≤ sorted.size := ⟨hmono, by rw [hfilled.size_sorted]; exact hend⟩
  simp only [row?, hoffset k (Nat.le_of_lt hk), hoffset (k + 1) hk, Option.bind_eq_bind,
    Option.bind_some, if_pos hcut, hfilled.extract hk]
  refine congrArg some (Array.ext' ?_)
  simp [rowOf]

/-! ## One row after the other -/

/-- No item is above all keys. -/
theorem below_eq_length (hkeys : ∀ item ∈ items, item.1.toNat < n) :
    below items n = items.length :=
  List.countP_eq_length.2 fun item hitem => decide_eq_true (hkeys item hitem)

theorem length_flatMap_rowOf (items : List (UInt32 × α)) (k : Nat) :
    ((List.range k).flatMap (rowOf items)).length = below items k := by
  induction k with
  | zero => exact below_zero.symm
  | succ k ih =>
    rw [List.range_succ, List.flatMap_append, List.flatMap_singleton, List.length_append, ih,
      below_succ]

theorem Filling.toList_eq (h : Filling n items items cursors sorted)
    (hkeys : ∀ item ∈ items, item.1.toNat < n) :
    sorted.toList = (List.range n).flatMap (rowOf items) := by
  have htake : ∀ k, k ≤ n →
      sorted.toList.take (below items k) = (List.range k).flatMap (rowOf items) := by
    intro k hk
    induction k with
    | zero => rw [below_zero, List.take_zero, List.range_zero, List.flatMap_nil]
    | succ k ih =>
      have hrow : (sorted.toList.drop (below items k)).take (rowOf items k).length =
          rowOf items k := by
        have hextract := congrArg Array.toList (h.extract hk)
        rwa [Array.toList_extract, List.extract_eq_take_drop, below_succ,
          Nat.add_sub_cancel_left] at hextract
      rw [below_succ, List.take_add, ih (Nat.le_of_succ_le hk), hrow, List.range_succ,
        List.flatMap_append, List.flatMap_singleton]
  have hall : below items n = sorted.toList.length := by
    rw [Array.length_toList, h.size_sorted, below_eq_length hkeys]
  rw [← htake n (Nat.le_refl n), hall, List.take_length]

theorem toList_flatten_rowsByKey (n : Nat) (items : Array (UInt32 × α)) :
    (rowsByKey n items).flatten.toList = (List.range n).flatMap (rowOf items.toList) := by
  rw [Array.toList_flatten, List.flatMap_def]
  congr 1
  apply List.ext_getElem?
  intro k
  rw [List.getElem?_map, Array.getElem?_toList, List.getElem?_map]
  by_cases hk : k < n
  · rw [getElem?_rowsByKey hk, List.getElem?_range hk]
    simp [rowOf]
  · rw [Array.getElem?_eq_none (by rw [size_rowsByKey]; exact Nat.not_lt.1 hk),
      List.getElem?_eq_none (by simpa using hk)]
    rfl

/-- **Sorting by counting puts the rows one after the other**, and the offset of a key is the number
of items below it. -/
theorem build?_eq [Inhabited α] {items : Array (UInt32 × α)}
    (hkeys : ∀ item ∈ items, item.1.toNat < n) : build? n items =
      some ⟨((List.range (n + 1)).map (below items.toList)).toArray, (rowsByKey n items).flatten⟩ := by
  obtain ⟨cursors, sorted, hbuild, hfilled⟩ := exists_filled hkeys
  have hsorted : sorted = (rowsByKey n items).flatten := by
    apply Array.ext'
    rw [toList_flatten_rowsByKey]
    exact hfilled.toList_eq (by simpa using hkeys)
  rw [hbuild, hsorted]

/-- What the last step of sorting by counting puts into an array that is large enough. -/
theorem exists_foldlM_place? [Inhabited α] {items : Array (UInt32 × α)}
    (hkeys : ∀ item ∈ items, item.1.toNat < n) : ∃ cursors, items.toList.foldlM place?
      (((List.range (n + 1)).map (below items.toList)).toArray.extract 0 n,
        Array.replicate items.size default) = some (cursors, (rowsByKey n items).flatten) := by
  have hbuild := build?_eq hkeys
  simp only [build?, Option.bind_eq_bind, Option.bind_eq_some_iff] at hbuild
  obtain ⟨counts, -, hbuild⟩ := hbuild
  split at hbuild
  · obtain ⟨⟨cursors, sorted⟩, hfold, heq⟩ := Option.bind_eq_some_iff.1 hbuild
    obtain ⟨hoffsets, hsorted⟩ := PackedRows.mk.inj (Option.some.inj heq)
    obtain rfl : sorted = (rowsByKey n items).flatten := hsorted
    rw [hoffsets] at hfold
    exact ⟨cursors, hfold⟩
  · cases hbuild

end PackedRows

end VertexSweep
