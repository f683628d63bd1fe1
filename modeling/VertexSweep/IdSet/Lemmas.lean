import VertexSweep.IdSet.Basic

/-!
# What the operations of a set do to its members

Each operation on `IdSet` is described by the members it leaves: `contains_insertRange`,
`contains_removeRange`, `contains_insert` and `contains_erase` for the ones that change a set,
`mem_toList`, `pairwise_toList`, `size_eq` and `isEmpty_iff` for the ones that read it. All of
them follow from one lemma for each operation on trees, proved along the height of the tree.
-/

namespace VertexSweep

namespace IdTree

theorem span_zero : span 0 = 1 := rfl

theorem span_succ (h : Nat) : span (h + 1) = 2 * span h := Nat.shiftLeft_succ 1 h

theorem span_pos (h : Nat) : 0 < span h := by
  rw [span, Nat.one_shiftLeft]
  exact Nat.two_pow_pos h

theorem span_mono {h j : Nat} (hle : h ≤ j) : span h ≤ span j := by
  rw [span, span, Nat.one_shiftLeft, Nat.one_shiftLeft]
  exact Nat.pow_le_pow_right (by omega) hle

theorem lt_span_log2 (n : Nat) : n < span (n.log2 + 1) := by
  rw [span, Nat.one_shiftLeft]
  exact Nat.lt_log2_self

theorem lt_of_mem {h : Nat} {t : IdTree} {k : Nat} (hk : t.mem h k = true) : k < span h := by
  induction h generalizing t k with
  | zero => cases t <;> simp_all [mem]
  | succ h ih =>
    have double := span_succ h
    cases t with
    | empty => simp [mem] at hk
    | full => simpa [mem] using hk
    | node low high =>
      simp only [mem] at hk
      split at hk
      · omega
      · have := ih hk; omega

theorem mem_eq_false {h : Nat} {t : IdTree} {k : Nat} (hk : span h ≤ k) : t.mem h k = false := by
  cases hm : t.mem h k with
  | false => rfl
  | true => have := lt_of_mem hm; omega

theorem mem_node {h : Nat} {low high : IdTree} {k : Nat} :
    (node low high).mem (h + 1) k =
      if k < span h then low.mem h k else high.mem h (k - span h) := rfl

theorem mem_empty {h k : Nat} : empty.mem h k = false := by cases h <;> rfl

theorem mem_full {h k : Nat} : full.mem h k = decide (k < span h) := by cases h <;> rfl

/-- Joining two trees is the same as making a node of them. -/
theorem mem_join {h : Nat} {low high : IdTree} {k : Nat} :
    (join low high).mem (h + 1) k =
      if k < span h then low.mem h k else high.mem h (k - span h) := by
  have double := span_succ h
  unfold join
  split
  · simp [mem_empty]
  · simp only [mem_full]
    split <;> simp <;> omega
  · exact mem_node

/-- A tree is the node of its halves. -/
theorem mem_halves {h : Nat} {t : IdTree} {k : Nat} :
    t.mem (h + 1) k =
      if k < span h then t.halves.1.mem h k else t.halves.2.mem h (k - span h) := by
  have double := span_succ h
  cases t with
  | empty => simp [halves, mem_empty]
  | full =>
    simp only [halves, mem_full]
    split <;> simp <;> omega
  | node low high => exact mem_node

theorem mem_leaf {value : Bool} {h k : Nat} (hk : k < span h) : (leaf value).mem h k = value := by
  cases value <;> simp [leaf, mem_empty, mem_full, hk]

/-- Assigning a range decides membership inside it and leaves it alone outside. -/
theorem mem_assign {value : Bool} {h : Nat} {t : IdTree} {lo hi k : Nat} (hk : k < span h) :
    (assign value h t lo hi).mem h k = if lo ≤ k ∧ k < hi then value else t.mem h k := by
  induction h generalizing t lo hi k with
  | zero =>
    unfold assign
    split
    · rw [if_neg (by omega)]
    · split
      · rw [if_pos (by omega), mem_leaf hk]
      · have one := span_zero
        rw [if_neg (by omega)]
  | succ h ih =>
    have double := span_succ h
    unfold assign
    split
    · rw [if_neg (by omega)]
    · split
      · rw [if_pos (by omega), mem_leaf hk]
      · rw [mem_join, @mem_halves h t k]
        split
        · rename_i hlow
          rw [ih hlow]
          congr 1
          simp only [eq_iff_iff]
          omega
        · rename_i hhigh
          rw [ih (by omega)]
          congr 1
          simp only [eq_iff_iff]
          omega

/-- Raising a tree keeps its members. -/
theorem mem_raise {h extra : Nat} {t : IdTree} {k : Nat} :
    (raise extra t).mem (h + extra) k = t.mem h k := by
  induction extra generalizing h t with
  | zero => rfl
  | succ extra ih =>
    have step : (join t .empty).mem (h + 1) k = t.mem h k := by
      rw [mem_join]
      split
      · rfl
      · rw [mem_empty, mem_eq_false (by omega)]
    rw [raise, show h + (extra + 1) = h + 1 + extra by omega, ih, step]

theorem isEmpty_iff {h : Nat} {t : IdTree} :
    t.isEmpty h = true ↔ ∀ k, t.mem h k = false := by
  induction h generalizing t with
  | zero =>
    cases t with
    | empty => simp [isEmpty, mem]
    | full => simpa [isEmpty, mem] using ⟨0, span_pos 0⟩
    | node low high => simp [isEmpty, mem]
  | succ h ih =>
    cases t with
    | empty => simp [isEmpty, mem]
    | full => simpa [isEmpty, mem] using ⟨0, span_pos (h + 1)⟩
    | node low high =>
      simp only [isEmpty, Bool.and_eq_true, ih, mem_node]
      constructor
      · rintro ⟨hlow, hhigh⟩ k
        split
        · exact hlow k
        · exact hhigh _
      · intro all
        refine ⟨fun k => ?_, fun k => ?_⟩
        · by_cases hk : k < span h
          · simpa [hk] using all k
          · exact mem_eq_false (by omega)
        · have := all (k + span h)
          rwa [if_neg (by omega), Nat.add_sub_cancel] at this

theorem mem_membersOnto {h : Nat} {t : IdTree} {base : Nat} {rest : List Nat} {x : Nat} :
    x ∈ t.membersOnto h base rest ↔ (base ≤ x ∧ t.mem h (x - base) = true) ∨ x ∈ rest := by
  induction h generalizing t base rest with
  | zero =>
    cases t with
    | empty => simp [membersOnto, mem]
    | full =>
      simp only [membersOnto, mem, List.mem_append, List.mem_range'_1, decide_eq_true_eq]
      exact or_congr_left (and_congr_right fun _ => by omega)
    | node low high => simp [membersOnto, mem]
  | succ h ih =>
    cases t with
    | empty => simp [membersOnto, mem]
    | full =>
      simp only [membersOnto, mem, List.mem_append, List.mem_range'_1, decide_eq_true_eq]
      exact or_congr_left (and_congr_right fun _ => by omega)
    | node low high =>
      simp only [membersOnto, ih, mem_node]
      by_cases hx : x - base < span h
      · have : ¬ base + span h ≤ x := by omega
        simp [hx, this]
      · have hlow : low.mem h (x - base) = false := mem_eq_false (by omega)
        have hbase : base ≤ x ↔ base + span h ≤ x := by
          have := span_pos h
          omega
        simp [hx, hlow, hbase, Nat.sub_add_eq]

theorem pairwise_membersOnto {h : Nat} {t : IdTree} {base : Nat} {rest : List Nat}
    (above : ∀ y ∈ rest, base + span h ≤ y) (sorted : rest.Pairwise (· < ·)) :
    (t.membersOnto h base rest).Pairwise (· < ·) := by
  induction h generalizing t base rest with
  | zero =>
    cases t with
    | empty => exact sorted
    | full =>
      refine List.pairwise_append.2 ⟨List.pairwise_lt_range', sorted, fun x hx y hy => ?_⟩
      have := List.mem_range'_1.1 hx
      have := above y hy
      omega
    | node low high => exact sorted
  | succ h ih =>
    have double := span_succ h
    cases t with
    | empty => exact sorted
    | full =>
      refine List.pairwise_append.2 ⟨List.pairwise_lt_range', sorted, fun x hx y hy => ?_⟩
      have := List.mem_range'_1.1 hx
      have := above y hy
      omega
    | node low high =>
      refine ih (fun y hy => ?_) (ih (fun y hy => ?_) sorted)
      · rcases mem_membersOnto.1 hy with ⟨hbase, -⟩ | hrest
        · exact hbase
        · have := above y hrest
          have := span_pos h
          omega
      · have := above y hy; omega

theorem length_membersOnto {h : Nat} {t : IdTree} {base : Nat} {rest : List Nat} :
    (t.membersOnto h base rest).length = t.size h + rest.length := by
  induction h generalizing t base rest with
  | zero => cases t <;> simp [membersOnto, size, Nat.add_comm]
  | succ h ih =>
    cases t with
    | empty => simp [membersOnto, size]
    | full => simp [membersOnto, size]
    | node low high => simp [membersOnto, size, ih, Nat.add_assoc]

end IdTree

namespace IdSet

variable {s : IdSet} {lo hi k j : Nat}

@[simp]
theorem contains_empty : empty.contains k = false := IdTree.mem_empty

theorem le_heightFor (hi : Nat) : hi ≤ IdTree.span (heightFor hi) := by
  unfold heightFor
  split
  · have := IdTree.span_pos 0
    omega
  · have := IdTree.lt_span_log2 (hi - 1)
    omega

/-- Adding a range makes its numbers members and keeps all others as they were. -/
@[simp]
theorem contains_insertRange :
    (s.insertRange lo hi).contains k = (decide (lo ≤ k ∧ k < hi) || s.contains k) := by
  unfold insertRange
  split
  · simp; omega
  · rename_i nonempty
    simp only [contains]
    have room : hi ≤ IdTree.span (s.height + (heightFor hi - s.height)) :=
      Nat.le_trans (le_heightFor hi) (IdTree.span_mono (by omega))
    by_cases hk : k < IdTree.span (s.height + (heightFor hi - s.height))
    · rw [IdTree.mem_assign hk, IdTree.mem_raise]
      by_cases inside : lo ≤ k ∧ k < hi <;> simp [inside]
    · have outside : ¬ (lo ≤ k ∧ k < hi) := by omega
      have absent : s.tree.mem s.height k = false := by
        rw [← @IdTree.mem_raise s.height (heightFor hi - s.height)]
        exact IdTree.mem_eq_false (by omega)
      rw [IdTree.mem_eq_false (by omega)]
      simp [outside, absent]

/-- Removing a range keeps exactly the members outside of it. -/
@[simp]
theorem contains_removeRange :
    (s.removeRange lo hi).contains k = (!decide (lo ≤ k ∧ k < hi) && s.contains k) := by
  simp only [removeRange, contains]
  by_cases hk : k < IdTree.span s.height
  · rw [IdTree.mem_assign hk]
    by_cases inside : lo ≤ k ∧ k < hi <;> simp [inside]
  · rw [IdTree.mem_eq_false (by omega), IdTree.mem_eq_false (by omega), Bool.and_false]

private theorem le_and_lt_succ_iff : (j ≤ k ∧ k < j + 1) ↔ k = j := by omega

@[simp]
theorem contains_insert : (s.insert j).contains k = (decide (k = j) || s.contains k) := by
  simp only [insert, contains_insertRange, le_and_lt_succ_iff]

@[simp]
theorem contains_erase : (s.erase j).contains k = (!decide (k = j) && s.contains k) := by
  simp only [erase, contains_removeRange, le_and_lt_succ_iff]

@[simp]
theorem mem_toList : k ∈ s.toList ↔ s.contains k = true := by
  simp [toList, contains, IdTree.mem_membersOnto]

/-- The members are listed in ascending order, each of them once. -/
theorem pairwise_toList : s.toList.Pairwise (· < ·) :=
  IdTree.pairwise_membersOnto (by simp) .nil

theorem size_eq : s.size = s.toList.length := by
  simp [size, toList, IdTree.length_membersOnto]

theorem isEmpty_iff : s.isEmpty = true ↔ ∀ k, s.contains k = false := IdTree.isEmpty_iff

/-! ## Sets with the same members -/

theorem toList_congr {s' : IdSet} (h : ∀ k, s'.contains k = s.contains k) :
    s'.toList = s.toList := by
  have hmem : ∀ k, k ∈ s'.toList ↔ k ∈ s.toList := by
    intro k
    rw [mem_toList, mem_toList, h]
  have hnodup : ∀ s : IdSet, s.toList.Nodup := fun _ => pairwise_toList.imp Nat.ne_of_lt
  apply List.Perm.eq_of_pairwise _ pairwise_toList pairwise_toList
  · exact (List.perm_ext_iff_of_nodup (hnodup s') (hnodup s)).2 hmem
  · intro a b _ _ hab hba
    exact absurd hab (Nat.lt_asymm hba)

theorem size_congr {s' : IdSet} (h : ∀ k, s'.contains k = s.contains k) : s'.size = s.size := by
  rw [size_eq, size_eq, toList_congr h]

theorem isEmpty_congr {s' : IdSet} (h : ∀ k, s'.contains k = s.contains k) :
    s'.isEmpty = s.isEmpty := by
  rw [Bool.eq_iff_iff, isEmpty_iff, isEmpty_iff]
  simp only [h]

end IdSet

end VertexSweep
