import VertexSweep.IdSet.Lemmas
import VertexSweep.Sweep.Tasks

/-!
# What requests do to a schedule

A schedule is read through two predicates on vertices: `isDue`, a turn that is still to come in the
current sweep, and `isRequested`, a turn in the next one. Each operation is described by what it
does to the two. No request takes a vertex off the next sweep (`isRequested_grantAll`), and only a
removal takes one off the current sweep (`isDue_grantAll`).
-/

namespace VertexSweep.Tasks

variable {t : Tasks} {v w : VertexId} {urgent : Bool} {r : Request} {requests : Array Request}

/-- Whether `v` is requested for the next sweep. -/
def isRequested (t : Tasks) (v : VertexId) : Bool := t.next.contains v.toNat

/-- Grants requests in their order. -/
def grantAll (t : Tasks) (requests : Array Request) : Tasks := requests.foldl grant t

theorem grantAll_eq : t.grantAll requests = requests.toList.foldl grant t :=
  (Array.foldl_toList ..).symm

/-! ## Taking a turn -/

theorem take_eq : t.take v = (t.isDue v, if t.isDue v then
    { t with current := t.current.erase v.toNat } else t) := by
  cases h : t.isDue v <;> simp [take, show t.current.contains v.toNat = _ from h]

theorem take_of_not_isDue (h : t.isDue v = false) : t.take v = (false, t) := by
  simp [take_eq, h]

@[simp]
theorem fst_take : (t.take v).1 = t.isDue v := by rw [take_eq]

@[simp]
theorem bound_take : (t.take v).2.bound = t.bound := by
  rw [take_eq]
  cases t.isDue v <;> rfl

@[simp]
theorem isRequested_take : (t.take v).2.isRequested w = t.isRequested w := by
  rw [take_eq]
  cases t.isDue v <;> rfl

/-- Taking a turn leaves the turns of all other vertices. -/
theorem isDue_take (hne : w ≠ v) : (t.take v).2.isDue w = t.isDue w := by
  have hnat : w.toNat ≠ v.toNat := fun h => hne (UInt32.toNat_inj.1 h)
  rw [take_eq]
  cases t.isDue v with
  | false => rfl
  | true => simp [isDue, hnat]

/-! ## Granting requests -/

theorem add_eq : t.add v urgent = if t.bound ≤ v.toNat then t else
    { t with
      current := if urgent then t.current.insert v.toNat else t.current
      next := t.next.insert v.toNat } := rfl

@[simp]
theorem bound_add : (t.add v urgent).bound = t.bound := by
  rw [add_eq]
  split <;> rfl

@[simp]
theorem bound_grant : (t.grant r).bound = t.bound := by
  cases r with
  | add => exact bound_add
  | remove => rfl

theorem isRequested_add :
    (t.add v urgent).isRequested w =
      (t.isRequested w || (w == v && decide (v.toNat < t.bound))) := by
  have hword : w.toNat = v.toNat ↔ w = v := UInt32.toNat_inj
  rw [add_eq]
  by_cases hbound : t.bound ≤ v.toNat
  · have hout : ¬ v.toNat < t.bound := Nat.not_lt.2 hbound
    simp [hbound, hout]
  · have hin : v.toNat < t.bound := Nat.not_le.1 hbound
    simp [isRequested, hbound, hin, hword, Bool.or_comm, Bool.beq_eq_decide_eq]

theorem isDue_add : (t.add v urgent).isDue w =
    (t.isDue w || (w == v && urgent && decide (v.toNat < t.bound))) := by
  have hword : w.toNat = v.toNat ↔ w = v := UInt32.toNat_inj
  rw [add_eq]
  by_cases hbound : t.bound ≤ v.toNat
  · have hout : ¬ v.toNat < t.bound := Nat.not_lt.2 hbound
    simp [hbound, hout]
  · have hin : v.toNat < t.bound := Nat.not_le.1 hbound
    cases urgent <;> simp [isDue, hbound, hin, hword, Bool.or_comm, Bool.beq_eq_decide_eq]

theorem isDue_remove {first last : VertexId} : (t.remove first last).isDue w =
    (!decide (first ≤ w ∧ w ≤ last) && t.isDue w) := by
  have hrange : (first.toNat ≤ w.toNat ∧ w.toNat < last.toNat + 1) ↔ first ≤ w ∧ w ≤ last := by
    rw [UInt32.le_iff_toNat_le, UInt32.le_iff_toNat_le, Nat.lt_succ_iff]
  simp only [remove, isDue, IdSet.contains_removeRange, hrange]

theorem isDue_of_isDue_add (h : t.isDue w = true) : (t.add v urgent).isDue w = true := by
  rw [isDue_add, h, Bool.true_or]

/-- No request takes a vertex off the next sweep. -/
theorem isRequested_grant (h : t.isRequested w = true) : (t.grant r).isRequested w = true := by
  cases r with
  | add => simp [grant, isRequested_add, h]
  | remove => exact h

theorem isDue_grant (hr : ∀ first last, r ≠ .remove first last) (h : t.isDue w = true) :
    (t.grant r).isDue w = true := by
  cases r with
  | add => exact isDue_of_isDue_add h
  | remove first last => exact absurd rfl (hr first last)

@[simp]
theorem bound_grantAll : (t.grantAll requests).bound = t.bound := by
  rw [grantAll_eq]
  induction requests.toList generalizing t with
  | nil => rfl
  | cons r rs ih => rw [List.foldl_cons, ih, bound_grant]

private theorem isRequested_foldl {rs : List Request} (h : t.isRequested w = true) :
    (rs.foldl grant t).isRequested w = true := by
  induction rs generalizing t with
  | nil => exact h
  | cons r rs ih => exact ih (isRequested_grant h)

theorem isRequested_grantAll (h : t.isRequested w = true) :
    (t.grantAll requests).isRequested w = true := by
  rw [grantAll_eq]
  exact isRequested_foldl h

/-- Only a removal takes a vertex off the current sweep. -/
theorem isDue_grantAll (hr : ∀ first last, .remove first last ∉ requests)
    (h : t.isDue w = true) : (t.grantAll requests).isDue w = true := by
  rw [grantAll_eq]
  replace hr : ∀ r ∈ requests.toList, ∀ first last, r ≠ .remove first last :=
    fun r hmem first last heq => hr first last (heq ▸ Array.mem_toList_iff.1 hmem)
  generalize requests.toList = rs at hr
  induction rs generalizing t with
  | nil => exact h
  | cons r rs ih =>
    exact ih (isDue_grant (hr r List.mem_cons_self) h)
      fun r' hmem => hr r' (List.mem_cons_of_mem _ hmem)

/-- A vertex that is asked for is requested, urgently or not. -/
theorem isRequested_of_mem (hmem : .add w urgent ∈ requests) (hw : w.toNat < t.bound) :
    (t.grantAll requests).isRequested w = true := by
  rw [grantAll_eq]
  replace hmem := Array.mem_toList_iff.2 hmem
  generalize requests.toList = rs at hmem
  induction rs generalizing t with
  | nil => cases hmem
  | cons r rs ih =>
    rcases List.mem_cons.1 hmem with rfl | htail
    · have hnow : (t.grant (.add w urgent)).isRequested w = true := by
        simp [grant, isRequested_add, hw]
      rw [List.foldl_cons]
      exact isRequested_foldl hnow
    · exact ih (by rwa [bound_grant]) htail

/-! ## Between sweeps -/

@[simp]
theorem bound_advance : t.advance.bound = t.bound := rfl

@[simp]
theorem isDue_advance : t.advance.isDue v = t.isRequested v := rfl

@[simp]
theorem isRequested_advance : t.advance.isRequested v = false := by
  simp [advance, isRequested]

/-- In a schedule without activity no vertex is due. -/
theorem isDue_eq_false (h : t.isActive = false) : t.isDue v = false := by
  have hempty : t.current.isEmpty = true := by simpa [isActive] using h
  exact IdSet.isEmpty_iff.1 hempty v.toNat

theorem isDue_addAll (hv : v.toNat < t.bound) : t.addAll.isDue v = true := by
  simp [addAll, isDue, hv]

@[simp]
theorem bound_addAll : t.addAll.bound = t.bound := rfl

/-! ## Schedules with the same tasks -/

/-- The schedules have the same tasks, however these came about. -/
structure Alike (t t' : Tasks) : Prop where
  bound : t'.bound = t.bound
  current : ∀ k, t'.current.contains k = t.current.contains k
  next : ∀ k, t'.next.contains k = t.next.contains k

theorem contains_next_grant {k : Nat} : (t.grant r).next.contains k = true ↔
    t.next.contains k = true ∨ k < t.bound ∧ ∃ v urgent, r = .add v urgent ∧ v.toNat = k := by
  cases r with
  | remove => simp [grant, remove]
  | add v urgent =>
    rw [grant, add_eq]
    split
    · rename_i hout
      constructor
      · exact .inl
      · rintro (h | ⟨hk, w, _, heq, rfl⟩)
        · exact h
        · cases heq
          omega
    · rename_i hin
      rw [IdSet.contains_insert, Bool.or_eq_true, decide_eq_true_eq, or_comm]
      apply or_congr_right
      constructor
      · intro hk
        exact ⟨by omega, v, urgent, rfl, hk.symm⟩
      · rintro ⟨-, w, _, heq, rfl⟩
        cases heq
        rfl

/-- Without removals, who is due was due before or is asked for urgently. -/
theorem contains_current_grant {k : Nat} (hr : ∀ first last, r ≠ .remove first last) :
    (t.grant r).current.contains k = true ↔
      t.current.contains k = true ∨ k < t.bound ∧ ∃ v, r = .add v true ∧ v.toNat = k := by
  cases r with
  | remove first last => exact absurd rfl (hr first last)
  | add v urgent =>
    rw [grant, add_eq]
    split
    · rename_i hout
      constructor
      · exact .inl
      · rintro (h | ⟨hk, w, heq, rfl⟩)
        · exact h
        · cases heq
          omega
    · rename_i hin
      cases urgent with
      | false => simp
      | true =>
        rw [if_pos rfl, IdSet.contains_insert, Bool.or_eq_true, decide_eq_true_eq, or_comm]
        apply or_congr_right
        constructor
        · intro hk
          exact ⟨by omega, v, rfl, hk.symm⟩
        · rintro ⟨-, w, heq, rfl⟩
          cases heq
          rfl

theorem contains_next_grantAll {k : Nat} : (t.grantAll requests).next.contains k = true ↔
    t.next.contains k = true ∨
      k < t.bound ∧ ∃ v urgent, .add v urgent ∈ requests ∧ v.toNat = k := by
  rw [grantAll_eq]
  simp only [← Array.mem_toList_iff]
  induction requests.toList generalizing t with
  | nil => simp
  | cons r rs ih =>
    rw [List.foldl_cons, ih, bound_grant, contains_next_grant, or_assoc, ← and_or_left,
      ← exists_or]
    simp only [← exists_or, ← or_and_right, List.mem_cons, eq_comm (a := r)]

theorem contains_current_grantAll {k : Nat} (hr : ∀ first last, .remove first last ∉ requests) :
    (t.grantAll requests).current.contains k = true ↔ t.current.contains k = true ∨
      k < t.bound ∧ ∃ v, .add v true ∈ requests ∧ v.toNat = k := by
  rw [grantAll_eq]
  simp only [← Array.mem_toList_iff] at hr ⊢
  generalize requests.toList = rs at hr
  induction rs generalizing t with
  | nil => simp
  | cons r rs ih =>
    have hhead : ∀ first last, r ≠ .remove first last :=
      fun first last heq => hr first last (heq ▸ List.mem_cons_self)
    have htail : ∀ first last, .remove first last ∉ rs :=
      fun first last hmem => hr first last (List.mem_cons_of_mem r hmem)
    rw [List.foldl_cons, ih htail, bound_grant, contains_current_grant hhead, or_assoc,
      ← and_or_left, ← exists_or]
    simp only [← or_and_right, List.mem_cons, eq_comm (a := r)]

namespace Alike

variable {t' : Tasks} {requests' : Array Request}

theorem refl : t.Alike t := ⟨rfl, fun _ => rfl, fun _ => rfl⟩

theorem isDue_eq (h : t.Alike t') : t'.isDue v = t.isDue v := h.current v.toNat

theorem take (h : t.Alike t') : (t.take v).2.Alike (t'.take v).2 := by
  rw [take_eq, take_eq, h.isDue_eq]
  cases t.isDue v with
  | false => exact h
  | true =>
    refine ⟨h.bound, fun k => ?_, h.next⟩
    show (t'.current.erase v.toNat).contains k = (t.current.erase v.toNat).contains k
    rw [IdSet.contains_erase, IdSet.contains_erase, h.current]

/-- It does not matter in which order requests are made, or how often. -/
theorem grantAll (h : t.Alike t') (hr : ∀ first last, .remove first last ∉ requests)
    (hmem : ∀ r, r ∈ requests' ↔ r ∈ requests) :
    (t.grantAll requests).Alike (t'.grantAll requests') where
  bound := by rw [bound_grantAll, bound_grantAll, h.bound]
  current k := by
    have hr' : ∀ first last, .remove first last ∉ requests' :=
      fun first last h => hr first last ((hmem _).1 h)
    rw [Bool.eq_iff_iff, contains_current_grantAll hr, contains_current_grantAll hr', h.current,
      h.bound]
    simp only [hmem]
  next k := by
    rw [Bool.eq_iff_iff, contains_next_grantAll, contains_next_grantAll, h.next, h.bound]
    simp only [hmem]

theorem advance (h : t.Alike t') : t.advance.Alike t'.advance :=
  ⟨h.bound, h.next, fun _ => rfl⟩

theorem pending_eq (h : t.Alike t') : t'.pending = t.pending := IdSet.size_congr h.next

theorem isActive_eq (h : t.Alike t') : t'.isActive = t.isActive := by
  rw [isActive, isActive, IdSet.isEmpty_congr h.current]

end Alike

end VertexSweep.Tasks
