import VertexSweep.Match.Candidates
import VertexSweep.Proofs.Match.SetPool

/-!
# Candidate tables as relations

A table stands for the relation `Candidates.contains` between vertices and pattern vertices. What a
table made by its operations (`Candidates.Built`) looks like inside is the invariant
`Candidates.WF`: indicator, slots and pool agree, no two vertices share a slot, and no set that is
in use is empty. On such a table an addition adds one pair (`add_of_addDefect?_eq_none`) and a
removal takes one away (`prune_of_isLive`); the list of candidates of a vertex, and whether it is
live, are views of the relation (`mem_candidatesOf`, `isLive_iff`).
-/

namespace VertexSweep.Candidates

/-- A table that the operations on tables have made. -/
inductive Built : Candidates → Prop where
  | ofCapacity (capacity width : Nat) : Built (ofCapacity capacity width)
  | add {t : Candidates} (u : VertexId) (p : PatternId) : Built t → Built (t.add u p).2
  | prune {t : Candidates} (u : VertexId) (p : PatternId) : Built t → Built (t.prune u p).2
  | sealed {t : Candidates} : Built t → Built t.sealed

variable {t : Candidates} {u v : VertexId} {p q : PatternId} {k i : Nat}

/-- Vertex number `k` has the set in slot `i`. -/
def Holds (t : Candidates) (k i : Nat) : Prop := t.slots[k]? = some (some i)

/-- The parts of a table agree: the indicator tells who has a set, every set in use has one
vertex, and vertices and candidates are words. -/
structure Linked (t : Candidates) : Prop where
  pool : t.pool.WF
  indicator : ∀ k, t.indicator.contains k = true ↔ ∃ i, t.Holds k i
  lt_of_holds : ∀ {k i}, t.Holds k i → k < 4294967296
  injective : ∀ {k j i}, t.Holds k i → t.Holds j i → k = j
  owned : ∀ i, t.pool.IsOwned i ↔ ∃ k, t.Holds k i
  bounded : ∀ {k i x}, t.Holds k i → (t.pool.get i).contains x = true →
    x < t.width ∧ x < 4294967296

/-- Between operations no set in use is empty either. -/
structure WF (t : Candidates) : Prop extends t.Linked where
  nonempty : ∀ {k i}, t.Holds k i → ∃ x, (t.pool.get i).contains x = true

theorem Holds.unique {j : Nat} (hi : t.Holds k i) (hj : t.Holds k j) : i = j := by
  unfold Holds at hi hj
  rw [hi] at hj
  cases hj
  rfl

theorem slot?_eq_some_iff : t.slot? u = some i ↔ t.Holds u.toNat i := by
  unfold slot? Holds
  cases t.slots[u.toNat]? <;> simp

theorem Holds.lt_capacity (h : t.Holds k i) : k < t.capacity :=
  (Array.getElem?_eq_some_iff.1 h).1

theorem Linked.isOwned (h : t.Linked) (hi : t.Holds k i) : t.pool.IsOwned i := (h.owned i).2 ⟨k, hi⟩

/-! ## Reading -/

theorem contains_iff : t.contains u p = true ↔
    ∃ i, t.Holds u.toNat i ∧ (t.pool.get i).contains p.toNat = true := by
  unfold contains setOf
  cases hslot : t.slot? u with
  | none =>
    have hnot : ∀ i, ¬ t.Holds u.toNat i := fun i hi => by
      rw [slot?_eq_some_iff.2 hi] at hslot
      cases hslot
    simp [hnot]
  | some i =>
    have hi := slot?_eq_some_iff.1 hslot
    constructor
    · exact fun h => ⟨i, hi, h⟩
    · rintro ⟨j, hj, h⟩
      rwa [hi.unique hj]

theorem lt_width (h : t.WF) (hp : t.contains u p = true) : p.toNat < t.width := by
  obtain ⟨i, hi, hmem⟩ := contains_iff.1 hp
  exact (h.bounded hi hmem).1

theorem lt_capacity (hp : t.contains u p = true) : u.toNat < t.capacity := by
  obtain ⟨i, hi, -⟩ := contains_iff.1 hp
  exact hi.lt_capacity

/-- A vertex is live if it has a candidate. -/
theorem isLive_iff (h : t.WF) : t.isLive u = true ↔ ∃ p, t.contains u p = true := by
  rw [isLive, h.indicator]
  constructor
  · rintro ⟨i, hi⟩
    obtain ⟨x, hx⟩ := h.nonempty hi
    have hword : (UInt32.ofNat x).toNat = x := UInt32.toNat_ofNat_of_lt' (h.bounded hi hx).2
    exact ⟨UInt32.ofNat x, contains_iff.2 ⟨i, hi, by rwa [hword]⟩⟩
  · rintro ⟨p, hp⟩
    obtain ⟨i, hi, -⟩ := contains_iff.1 hp
    exact ⟨i, hi⟩

theorem isLive_eq_false_iff (h : t.WF) : t.isLive u = false ↔ ∀ p, t.contains u p = false := by
  rw [← Bool.not_eq_true, isLive_iff h]
  simp

private theorem lt_word_of_mem_setOf (h : t.WF) {x : Nat} (hx : (t.setOf u).contains x = true) :
    x < 4294967296 := by
  unfold setOf at hx
  cases hslot : t.slot? u with
  | none => simp [hslot] at hx
  | some i =>
    rw [hslot] at hx
    exact (h.bounded (slot?_eq_some_iff.1 hslot) hx).2

/-- The list of candidates holds the pairs of the relation. -/
theorem mem_candidatesOf (h : t.WF) : p ∈ t.candidatesOf u ↔ t.contains u p = true := by
  simp only [candidatesOf, List.mem_map, IdSet.mem_toList]
  constructor
  · rintro ⟨x, hx, rfl⟩
    rwa [contains, UInt32.toNat_ofNat_of_lt' (lt_word_of_mem_setOf h hx)]
  · exact fun hp => ⟨p.toNat, hp, UInt32.ofNat_toNat⟩

theorem pairwise_candidatesOf (h : t.WF) :
    (t.candidatesOf u).Pairwise fun p q => p.toNat < q.toNat := by
  rw [candidatesOf, List.pairwise_map]
  refine (IdSet.pairwise_toList (s := t.setOf u)).imp_of_mem fun {x y} hx hy hlt => ?_
  rwa [UInt32.toNat_ofNat_of_lt' (lt_word_of_mem_setOf h (IdSet.mem_toList.1 hx)),
    UInt32.toNat_ofNat_of_lt' (lt_word_of_mem_setOf h (IdSet.mem_toList.1 hy))]

theorem mem_liveVertices (h : t.WF) : u ∈ t.liveVertices ↔ t.isLive u = true := by
  simp only [liveVertices, List.mem_map, IdSet.mem_toList]
  constructor
  · rintro ⟨k, hk, rfl⟩
    obtain ⟨i, hi⟩ := (h.indicator k).1 hk
    rwa [isLive, UInt32.toNat_ofNat_of_lt' (h.lt_of_holds hi)]
  · exact fun hu => ⟨u.toNat, hu, UInt32.ofNat_toNat⟩

theorem pairwise_liveVertices (h : t.WF) :
    t.liveVertices.Pairwise fun u v => u.toNat < v.toNat := by
  rw [liveVertices, List.pairwise_map]
  refine (IdSet.pairwise_toList (s := t.indicator)).imp_of_mem fun {j k} hj hk hlt => ?_
  obtain ⟨i, hi⟩ := (h.indicator j).1 (IdSet.mem_toList.1 hj)
  obtain ⟨i', hi'⟩ := (h.indicator k).1 (IdSet.mem_toList.1 hk)
  rwa [UInt32.toNat_ofNat_of_lt' (h.lt_of_holds hi),
    UInt32.toNat_ofNat_of_lt' (h.lt_of_holds hi')]

theorem ascending_nodup {xs : List UInt32}
    (h : xs.Pairwise fun a b => a.toNat < b.toNat) : xs.Nodup :=
  h.imp fun hlt heq => by
    subst heq
    exact Nat.lt_irrefl _ hlt

theorem nodup_candidatesOf (h : t.WF) : (t.candidatesOf u).Nodup :=
  ascending_nodup (pairwise_candidatesOf h)

theorem nodup_liveVertices (h : t.WF) : t.liveVertices.Nodup :=
  ascending_nodup (pairwise_liveVertices h)

private theorem ascending_ext {xs ys : List UInt32} (hx : xs.Pairwise fun a b => a.toNat < b.toNat)
    (hy : ys.Pairwise fun a b => a.toNat < b.toNat) (h : ∀ a, a ∈ xs ↔ a ∈ ys) : xs = ys := by
  refine List.Perm.eq_of_pairwise (fun a b _ _ hab hba => ?_) hx hy
    ((List.perm_ext_iff_of_nodup (ascending_nodup hx) (ascending_nodup hy)).2 h)
  exact absurd hab (Nat.lt_asymm hba)

/-- What a table lists depends on its relation alone. -/
theorem liveSets_congr {t' : Candidates} (h : t.WF) (h' : t'.WF)
    (hsame : ∀ u p, t.contains u p = true ↔ t'.contains u p = true) : t.liveSets = t'.liveSets := by
  have hlive : t.liveVertices = t'.liveVertices :=
    ascending_ext (pairwise_liveVertices h) (pairwise_liveVertices h') fun u => by
      rw [mem_liveVertices h, mem_liveVertices h', isLive_iff h, isLive_iff h']
      exact exists_congr (hsame u)
  have hsets : ∀ u, t.candidatesOf u = t'.candidatesOf u := fun u =>
    ascending_ext (pairwise_candidatesOf h) (pairwise_candidatesOf h') fun p => by
      rw [mem_candidatesOf h, mem_candidatesOf h']
      exact hsame u p
  simp only [liveSets, hlive, hsets]

/-! ## The empty table -/

theorem not_holds_ofCapacity {capacity width : Nat} : ¬ (ofCapacity capacity width).Holds k i := by
  intro h
  obtain ⟨hlt, heq⟩ := Array.getElem?_eq_some_iff.1 h
  simp [ofCapacity] at heq

theorem WF.ofCapacity (capacity width : Nat) : (ofCapacity capacity width).WF where
  pool := .empty
  indicator k := by
    simp only [not_holds_ofCapacity, exists_false, iff_false]
    simp [Candidates.ofCapacity]
  lt_of_holds h := (not_holds_ofCapacity h).elim
  injective h := (not_holds_ofCapacity h).elim
  owned i := by
    simp only [not_holds_ofCapacity, exists_false, iff_false]
    exact SetPool.not_isOwned_empty
  nonempty h := (not_holds_ofCapacity h).elim
  bounded h := (not_holds_ofCapacity h).elim

@[simp]
theorem contains_ofCapacity {capacity width : Nat} :
    (ofCapacity capacity width).contains u p = false := by
  rw [← Bool.not_eq_true, contains_iff]
  rintro ⟨i, hi, -⟩
  exact not_holds_ofCapacity hi

/-! ## Sealing -/

@[simp]
theorem contains_sealed : t.sealed.contains u p = t.contains u p := rfl

@[simp]
theorem isLive_sealed : t.sealed.isLive u = t.isLive u := rfl

@[simp]
theorem isSealed_sealed : t.sealed.isSealed = true := rfl

/-- Sealing changes nothing but whether candidates can be added. -/
theorem wf_sealed : t.sealed.WF ↔ t.WF :=
  ⟨fun h => { h with }, fun h => { h with }⟩

/-! ## The four changes to the parts

An operation changes one set, and may have to hand out a slot before or take one back after. -/

/-- Changes the set in slot `i`. -/
private def modifyAt (t : Candidates) (i : Nat) (f : IdSet → IdSet) : Candidates :=
  { t with pool := t.pool.modify i f }

/-- Gives `u` the set in a slot that is handed out for it. -/
private def allocFor (t : Candidates) (u : VertexId) : Candidates :=
  { t with
    indicator := t.indicator.insert u.toNat
    slots := t.slots.setIfInBounds u.toNat (some t.pool.alloc.1)
    pool := t.pool.alloc.2 }

/-- Takes the set in slot `i` from `u`. -/
private def releaseFrom (t : Candidates) (u : VertexId) (i : Nat) : Candidates :=
  { t with
    indicator := t.indicator.erase u.toNat
    slots := t.slots.setIfInBounds u.toNat none
    pool := t.pool.release i }

private theorem holds_modifyAt {f : IdSet → IdSet} {j : Nat} :
    (t.modifyAt i f).Holds k j ↔ t.Holds k j := Iff.rfl

private theorem get_modifyAt (h : t.Linked) (hi : t.Holds u.toNat i) {f : IdSet → IdSet} {j : Nat} :
    (t.modifyAt i f).pool.get j = if j = i then f (t.pool.get i) else t.pool.get j :=
  SetPool.get_modify (h.isOwned hi).1

private theorem Linked.modifyAt (h : t.Linked) (hi : t.Holds u.toNat i) {f : IdSet → IdSet}
    (hf : ∀ x, (f (t.pool.get i)).contains x = true →
      (t.pool.get i).contains x = true ∨ (x < t.width ∧ x < 4294967296)) :
    (t.modifyAt i f).Linked where
  pool := h.pool.modify (h.isOwned hi)
  indicator := h.indicator
  lt_of_holds := h.lt_of_holds
  injective := h.injective
  owned j := SetPool.isOwned_modify.trans (h.owned j)
  bounded {k j x} hj hx := by
    rw [get_modifyAt h hi] at hx
    split at hx
    · rename_i heq
      subst heq
      exact (hf x hx).elim (h.bounded hi) id
    · exact h.bounded hj hx

private theorem contains_modifyAt (h : t.Linked) (hi : t.Holds u.toNat i) {f : IdSet → IdSet} :
    (t.modifyAt i f).contains v q = true ↔
      if v = u then (f (t.pool.get i)).contains q.toNat = true else t.contains v q = true := by
  simp only [contains_iff, holds_modifyAt, get_modifyAt h hi]
  by_cases hv : v = u
  · subst hv
    rw [if_pos rfl]
    constructor
    · rintro ⟨j, hj, hq⟩
      rwa [if_pos (hj.unique hi)] at hq
    · exact fun hq => ⟨i, hi, by rwa [if_pos rfl]⟩
  · rw [if_neg hv]
    refine exists_congr fun j => and_congr_right fun hj => ?_
    have hne : j ≠ i := fun heq => hv (UInt32.toNat_inj.1 (h.injective (heq ▸ hj) hi))
    rw [if_neg hne]

private theorem holds_allocFor (hu : u.toNat < t.capacity) {j : Nat} :
    (t.allocFor u).Holds k j ↔ if k = u.toNat then j = t.pool.alloc.1 else t.Holds k j := by
  unfold Holds allocFor
  simp only
  by_cases hk : k = u.toNat
  · subst hk
    rw [Array.getElem?_setIfInBounds_self_of_lt hu, if_pos rfl]
    simp [eq_comm]
  · rw [Array.getElem?_setIfInBounds_ne (Ne.symm hk), if_neg hk]

private theorem Linked.allocFor (h : t.Linked) (hu : u.toNat < t.capacity)
    (hnone : ∀ i, ¬ t.Holds u.toNat i) : (t.allocFor u).Linked where
  pool := h.pool.alloc
  indicator k := by
    simp only [holds_allocFor hu]
    show (t.indicator.insert u.toNat).contains k = true ↔ _
    by_cases hk : k = u.toNat
    · simp [hk]
    · simp [hk, h.indicator]
  lt_of_holds {k j} hj := by
    rw [holds_allocFor hu] at hj
    split at hj
    · rename_i hk
      exact hk ▸ u.toNat_lt
    · exact h.lt_of_holds hj
  injective {k j l} hk hj := by
    rw [holds_allocFor hu] at hk hj
    split at hk <;> split at hj
    · omega
    · exact (SetPool.not_isOwned_alloc (hk ▸ h.isOwned hj)).elim
    · exact (SetPool.not_isOwned_alloc (hj ▸ h.isOwned hk)).elim
    · exact h.injective hk hj
  owned j := by
    refine (SetPool.isOwned_alloc h.pool).trans ?_
    simp only [holds_allocFor hu]
    constructor
    · rintro (hj | rfl)
      · obtain ⟨k, hk⟩ := (h.owned j).1 hj
        have hne : k ≠ u.toNat := fun heq => hnone j (heq ▸ hk)
        exact ⟨k, by rwa [if_neg hne]⟩
      · exact ⟨u.toNat, by rw [if_pos rfl]⟩
    · rintro ⟨k, hk⟩
      split at hk
      · exact .inr hk
      · exact .inl (h.isOwned hk)
  bounded {k j x} hj hx := by
    change (t.pool.alloc.2.get j).contains x = true at hx
    rw [SetPool.get_alloc] at hx
    rw [holds_allocFor hu] at hj
    split at hj
    · rw [hj, SetPool.get_alloc_fst h.pool] at hx
      cases hx
    · exact h.bounded hj hx

private theorem contains_allocFor (h : t.Linked) (hu : u.toNat < t.capacity)
    (hnone : ∀ i, ¬ t.Holds u.toNat i) :
    (t.allocFor u).contains v q = true ↔ t.contains v q = true := by
  simp only [contains_iff, holds_allocFor hu]
  refine exists_congr fun j => ?_
  change _ ∧ (t.pool.alloc.2.get j).contains q.toNat = true ↔ _
  rw [SetPool.get_alloc]
  by_cases hv : v.toNat = u.toNat
  · rw [if_pos hv, hv]
    constructor
    · rintro ⟨rfl, hq⟩
      rw [SetPool.get_alloc_fst h.pool] at hq
      cases hq
    · exact fun hj => (hnone j hj.1).elim
  · rw [if_neg hv]

private theorem holds_releaseFrom (hi : t.Holds u.toNat i) {j : Nat} :
    (t.releaseFrom u i).Holds k j ↔ k ≠ u.toNat ∧ t.Holds k j := by
  unfold Holds releaseFrom
  simp only
  by_cases hk : k = u.toNat
  · subst hk
    rw [Array.getElem?_setIfInBounds_self_of_lt hi.lt_capacity]
    simp
  · rw [Array.getElem?_setIfInBounds_ne (Ne.symm hk)]
    simp [hk]

private theorem Linked.releaseFrom (h : t.Linked) (hi : t.Holds u.toNat i) :
    (t.releaseFrom u i).Linked where
  pool := h.pool.release (h.isOwned hi)
  indicator k := by
    simp only [holds_releaseFrom hi]
    show (t.indicator.erase u.toNat).contains k = true ↔ _
    by_cases hk : k = u.toNat
    · simp [hk]
    · simp [hk, h.indicator]
  lt_of_holds hj := h.lt_of_holds ((holds_releaseFrom hi).1 hj).2
  injective hk hj :=
    h.injective ((holds_releaseFrom hi).1 hk).2 ((holds_releaseFrom hi).1 hj).2
  owned j := by
    refine SetPool.isOwned_release.trans ?_
    simp only [holds_releaseFrom hi, h.owned]
    constructor
    · rintro ⟨⟨k, hk⟩, hne⟩
      exact ⟨k, fun heq => hne ((heq ▸ hk : t.Holds u.toNat j).unique hi), hk⟩
    · rintro ⟨k, hne, hk⟩
      exact ⟨⟨k, hk⟩, fun heq => hne (h.injective (heq ▸ hk) hi)⟩
  bounded {k j x} hj hx := by
    change ((t.pool.release i).get j).contains x = true at hx
    rw [SetPool.get_release (h.isOwned hi).1] at hx
    split at hx
    · simp at hx
    · exact h.bounded ((holds_releaseFrom hi).1 hj).2 hx

private theorem contains_releaseFrom (h : t.Linked) (hi : t.Holds u.toNat i)
    (hempty : ∀ x, (t.pool.get i).contains x = false) :
    (t.releaseFrom u i).contains v q = true ↔ t.contains v q = true := by
  simp only [contains_iff, holds_releaseFrom hi]
  refine exists_congr fun j => ?_
  change _ ∧ ((t.pool.release i).get j).contains q.toNat = true ↔ _
  rw [SetPool.get_release (h.isOwned hi).1]
  by_cases hj : j = i
  · subst hj
    simp [hempty]
  · rw [if_neg hj]
    refine and_congr_left fun _ => ⟨And.right, fun hv => ⟨fun heq => hj ?_, hv⟩⟩
    exact (heq ▸ hv : t.Holds u.toNat j).unique hi

/-! ## Adding -/

/-- What an addition that is not refused finds. -/
theorem addDefect?_eq_none_iff : t.addDefect? u p = none ↔
    u.toNat < t.capacity ∧ p.toNat < t.width ∧ t.isSealed = false := by
  unfold addDefect?
  split
  · simp; omega
  split
  · simp; omega
  split
  · simp [*]
  · simp [*]
    omega

private theorem add_of_holds (hdefect : t.addDefect? u p = none) (hi : t.Holds u.toNat i) :
    t.add u p = (.ok (!(t.pool.get i).contains p.toNat), t.modifyAt i (·.insert p.toNat)) := by
  obtain ⟨indicator, slots, pool, width, isSealed⟩ := t
  have hslot : slots[u.toNat]?.join = some i := slot?_eq_some_iff.2 hi
  simp only [add, hdefect, hslot]
  rfl

private theorem add_of_not_holds (hdefect : t.addDefect? u p = none)
    (hnone : ∀ i, ¬ t.Holds u.toNat i) :
    t.add u p = (.ok true, (t.allocFor u).modifyAt t.pool.alloc.1 (·.insert p.toNat)) := by
  obtain ⟨indicator, slots, pool, width, isSealed⟩ := t
  have hslot : slots[u.toNat]?.join = none := by
    cases hslot : slots[u.toNat]?.join with
    | none => rfl
    | some i => exact (hnone i (slot?_eq_some_iff.1 hslot)).elim
  simp only [add, hdefect, hslot]
  rfl

/-- The set of a vertex after an insertion into it. -/
private theorem modifyAt_insert (h : t.Linked)
    (hrest : ∀ {k j}, t.Holds k j → k ≠ u.toNat → ∃ x, (t.pool.get j).contains x = true)
    (hi : t.Holds u.toNat i) (hp : p.toNat < t.width) :
    (t.modifyAt i (·.insert p.toNat)).WF ∧
      ∀ {v q}, (t.modifyAt i (·.insert p.toNat)).contains v q = true ↔
        t.contains v q = true ∨ (v = u ∧ q = p) := by
  refine ⟨{ h.modifyAt hi fun x hx => ?_ with nonempty := fun {k j} hj => ?_ }, fun {v q} => ?_⟩
  · simp only [IdSet.contains_insert, Bool.or_eq_true, decide_eq_true_eq] at hx
    rcases hx with rfl | hx
    · exact .inr ⟨hp, p.toNat_lt⟩
    · exact .inl hx
  · rw [get_modifyAt h hi]
    split
    · exact ⟨p.toNat, by simp⟩
    · rename_i hne
      exact hrest hj fun heq => hne ((heq ▸ hj : t.Holds u.toNat j).unique hi)
  · rw [contains_modifyAt h hi]
    by_cases hv : v = u
    · subst hv
      rw [if_pos rfl, contains_iff]
      simp only [IdSet.contains_insert, Bool.or_eq_true, decide_eq_true_eq, UInt32.toNat_inj,
        true_and]
      constructor
      · rintro (hq | hq)
        · exact .inr hq
        · exact .inl ⟨i, hi, hq⟩
      · rintro (⟨j, hj, hq⟩ | hq)
        · exact .inr (hj.unique hi ▸ hq)
        · exact .inl hq
    · simp [hv]

/-- **An addition adds one pair**, and says whether it is new. -/
theorem add_of_addDefect?_eq_none (h : t.WF) (hdefect : t.addDefect? u p = none) :
    (t.add u p).1 = .ok (!t.contains u p) ∧ (t.add u p).2.WF ∧
      ∀ {v q}, (t.add u p).2.contains v q = true ↔ t.contains v q = true ∨ (v = u ∧ q = p) := by
  obtain ⟨hu, hp, -⟩ := addDefect?_eq_none_iff.1 hdefect
  by_cases hhas : ∃ i, t.Holds u.toNat i
  · obtain ⟨i, hi⟩ := hhas
    rw [add_of_holds hdefect hi]
    refine ⟨?_, modifyAt_insert h.toLinked (fun hj _ => h.nonempty hj) hi hp⟩
    have hset : t.setOf u = t.pool.get i := by rw [setOf, slot?_eq_some_iff.2 hi]
    rw [contains, hset]
  · have hnone : ∀ i, ¬ t.Holds u.toNat i := fun i hi => hhas ⟨i, hi⟩
    rw [add_of_not_holds hdefect hnone]
    have hholds : (t.allocFor u).Holds u.toNat t.pool.alloc.1 := by
      rw [holds_allocFor hu, if_pos rfl]
    obtain ⟨hwf, hcontains⟩ := modifyAt_insert (h.toLinked.allocFor hu hnone)
      (fun {k j} hj hne => by
        rw [holds_allocFor hu, if_neg hne] at hj
        change ∃ x, (t.pool.alloc.2.get j).contains x = true
        rw [SetPool.get_alloc]
        exact h.nonempty hj) hholds hp
    refine ⟨?_, hwf, fun {v q} => ?_⟩
    · have hout : t.contains u p = false := by
        rw [← Bool.not_eq_true, contains_iff]
        rintro ⟨i, hi, -⟩
        exact hnone i hi
      rw [hout]
      rfl
    · rw [hcontains, contains_allocFor h.toLinked hu hnone]

theorem add_of_addDefect?_eq_some {fault : Fault} (hdefect : t.addDefect? u p = some fault) :
    t.add u p = (.error fault, t) := by
  simp [add, hdefect]

/-- An addition keeps the dimensions of a table and leaves it open or sealed as it was. -/
theorem shape_add : (t.add u p).2.capacity = t.capacity ∧ (t.add u p).2.width = t.width ∧
    (t.add u p).2.isSealed = t.isSealed := by
  cases hdefect : t.addDefect? u p with
  | some fault => simp [add_of_addDefect?_eq_some hdefect]
  | none =>
    by_cases hhas : ∃ i, t.Holds u.toNat i
    · obtain ⟨i, hi⟩ := hhas
      rw [add_of_holds hdefect hi]
      exact ⟨rfl, rfl, rfl⟩
    · rw [add_of_not_holds hdefect fun i hi => hhas ⟨i, hi⟩]
      exact ⟨Array.size_setIfInBounds, rfl, rfl⟩

/-- An addition makes a new slot only if there is no free one, and its vertex had none. -/
theorem size_pool_add : (t.add u p).2.pool.sets.size = t.pool.sets.size ∨
    (t.pool.free = [] ∧ u.toNat < t.capacity ∧ (∀ i, ¬ t.Holds u.toNat i) ∧
      (t.add u p).2.pool.sets.size = t.pool.sets.size + 1) := by
  cases hdefect : t.addDefect? u p with
  | some fault => simp [add_of_addDefect?_eq_some hdefect]
  | none =>
    by_cases hhas : ∃ i, t.Holds u.toNat i
    · obtain ⟨i, hi⟩ := hhas
      rw [add_of_holds hdefect hi]
      exact .inl Array.size_modify
    · have hnone : ∀ i, ¬ t.Holds u.toNat i := fun i hi => hhas ⟨i, hi⟩
      rw [add_of_not_holds hdefect hnone]
      have hsize : ((t.allocFor u).modifyAt t.pool.alloc.1 (·.insert p.toNat)).pool.sets.size =
          t.pool.alloc.2.sets.size := Array.size_modify
      rw [hsize]
      rcases @SetPool.size_alloc t.pool with hsame | ⟨hfree, hnew⟩
      · exact .inl hsame
      · exact .inr ⟨hfree, (addDefect?_eq_none_iff.1 hdefect).1, hnone, hnew⟩

theorem WF.add (h : t.WF) : (t.add u p).2.WF := by
  cases hdefect : t.addDefect? u p with
  | none => exact (add_of_addDefect?_eq_none h hdefect).2.1
  | some fault =>
    rw [add_of_addDefect?_eq_some hdefect]
    exact h

/-! ## Removing -/

private theorem prune_of_holds (hp : p.toNat < t.width) (hi : t.Holds u.toNat i) :
    t.prune u p = (.ok ((t.pool.get i).contains p.toNat),
      if ((t.modifyAt i (·.erase p.toNat)).pool.get i).isEmpty then
        (t.modifyAt i (·.erase p.toNat)).releaseFrom u i
      else t.modifyAt i (·.erase p.toNat)) := by
  obtain ⟨indicator, slots, pool, width, isSealed⟩ := t
  have hslot : (⟨indicator, slots, pool, width, isSealed⟩ : Candidates).slot? u = some i :=
    slot?_eq_some_iff.2 hi
  simp only [prune, if_neg (Nat.not_le.2 hp), hslot]
  exact (apply_ite (Prod.mk _) _ _ _).symm

/-- **A removal takes one pair away**, and says whether it was there. It succeeds if `p` lies in
the table and `u` has a candidate. -/
theorem prune_of_isLive (h : t.WF) (hp : p.toNat < t.width) (hu : t.isLive u = true) :
    (t.prune u p).1 = .ok (t.contains u p) ∧ (t.prune u p).2.WF ∧
      ∀ {v q}, (t.prune u p).2.contains v q = true ↔
        t.contains v q = true ∧ ¬ (v = u ∧ q = p) := by
  obtain ⟨i, hi⟩ := (h.indicator u.toNat).1 hu
  have hset : t.contains u p = (t.pool.get i).contains p.toNat := by
    rw [contains, setOf, slot?_eq_some_iff.2 hi]
  have hlinked : (t.modifyAt i (·.erase p.toNat)).Linked :=
    h.toLinked.modifyAt hi fun x hx => .inl (by simp at hx; exact hx.2)
  have hcontains : ∀ {v q}, (t.modifyAt i (·.erase p.toNat)).contains v q = true ↔
      t.contains v q = true ∧ ¬ (v = u ∧ q = p) := by
    intro v q
    rw [contains_modifyAt h.toLinked hi]
    by_cases hv : v = u
    · subst hv
      rw [if_pos rfl, contains, setOf, slot?_eq_some_iff.2 hi]
      simp [UInt32.toNat_inj, and_comm]
    · simp [hv]
  have hrest : ∀ {k j}, t.Holds k j → j ≠ i →
      ∃ x, ((t.modifyAt i (·.erase p.toNat)).pool.get j).contains x = true := by
    intro k j hj hne
    rw [get_modifyAt h.toLinked hi, if_neg hne]
    exact h.nonempty hj
  rw [hset, prune_of_holds hp hi]
  by_cases hempty : ((t.modifyAt i (·.erase p.toNat)).pool.get i).isEmpty = true
  · rw [if_pos hempty]
    have hnothing := IdSet.isEmpty_iff.1 hempty
    refine ⟨rfl, { hlinked.releaseFrom hi with nonempty := fun {k j} hj => ?_ }, fun {v q} => ?_⟩
    · obtain ⟨hne, hj⟩ := (holds_releaseFrom (t := t.modifyAt i _) hi).1 hj
      have hji : j ≠ i := fun heq => hne (h.injective (heq ▸ hj) hi)
      obtain ⟨x, hx⟩ := hrest hj hji
      refine ⟨x, ?_⟩
      change (((t.modifyAt i _).pool.release i).get j).contains x = true
      rwa [SetPool.get_release (hlinked.isOwned (k := u.toNat) hi).1, if_neg hji]
    · rw [contains_releaseFrom hlinked hi hnothing, hcontains]
  · rw [if_neg hempty]
    refine ⟨rfl, { hlinked with nonempty := fun {k j} hj => ?_ }, hcontains⟩
    by_cases hji : j = i
    · subst hji
      refine Classical.not_forall_not.1 fun hnone => hempty (IdSet.isEmpty_iff.2 fun x => ?_)
      rw [← Bool.not_eq_true]
      exact hnone x
    · exact hrest hj hji

/-- A removal leaves a table open or sealed as it was. -/
theorem isSealed_prune : (t.prune u p).2.isSealed = t.isSealed := by
  unfold Candidates.prune
  split
  · rfl
  split
  · rfl
  simp only
  split <;> rfl

theorem prune_of_width_le (hp : t.width ≤ p.toNat) :
    t.prune u p = (.error (.patternOutOfRange p t.width), t) := by
  simp only [Candidates.prune, if_pos hp]

theorem slot?_eq_none (h : t.WF) (hu : t.isLive u = false) : t.slot? u = none := by
  cases hslot : t.slot? u with
  | none => rfl
  | some i =>
    have hlive := (h.indicator u.toNat).2 ⟨i, slot?_eq_some_iff.1 hslot⟩
    rw [isLive, hlive] at hu
    cases hu

theorem prune_of_not_isLive (h : t.WF) (hp : p.toNat < t.width) (hu : t.isLive u = false) :
    t.prune u p = (.error (.misuse u .prunedWithoutCandidates), t) := by
  simp only [Candidates.prune, if_neg (Nat.not_le.2 hp), slot?_eq_none h hu]

/-- A removal keeps the dimensions of a table, and makes no slot. -/
theorem shape_prune : (t.prune u p).2.capacity = t.capacity ∧ (t.prune u p).2.width = t.width ∧
    (t.prune u p).2.pool.sets.size = t.pool.sets.size := by
  by_cases hp : p.toNat < t.width
  · cases hslot : t.slot? u with
    | none => simp only [Candidates.prune, if_neg (Nat.not_le.2 hp), hslot, and_self]
    | some i =>
      rw [prune_of_holds hp (slot?_eq_some_iff.1 hslot)]
      simp only
      split
      · exact ⟨Array.size_setIfInBounds, rfl, Array.size_setIfInBounds.trans Array.size_modify⟩
      · exact ⟨rfl, rfl, Array.size_modify⟩
  · rw [prune_of_width_le (Nat.not_lt.1 hp)]
    exact ⟨rfl, rfl, rfl⟩

theorem WF.prune (h : t.WF) : (t.prune u p).2.WF := by
  by_cases hp : p.toNat < t.width
  · cases hu : t.isLive u with
    | true => exact (prune_of_isLive h hp hu).2.1
    | false =>
      rw [prune_of_not_isLive h hp hu]
      exact h
  · rw [prune_of_width_le (Nat.not_lt.1 hp)]
    exact h

/-- **Every table that the operations have made is well formed.** -/
theorem Built.wf (h : t.Built) : t.WF := by
  induction h with
  | ofCapacity capacity width => exact .ofCapacity capacity width
  | add u p _ ih => exact ih.add
  | prune u p _ ih => exact ih.prune
  | sealed _ ih => exact wf_sealed.2 ih

end VertexSweep.Candidates
