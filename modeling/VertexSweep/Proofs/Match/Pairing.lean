import Mathlib.Algebra.GroupWithZero.Nat
import Mathlib.Algebra.Order.BigOperators.Group.Finset
import Mathlib.Data.Finset.Sort
import VertexSweep.Proofs.Match.Storage

/-!
# Tables as sets of pairs

A `Pairing` is what the users of a table know of it: its dimensions, a finite set of pairs of a
vertex and a candidate, and whether it is sealed. It takes the same calls as a table, and says of
each when it fails and with which fault. A table `Tracks` a pairing if it is well formed and has the
same pairs; one call keeps that (`Candidates.Tracks.call`), so a whole history does, and all that a
table can be asked is a view of its pairing (`Candidates.refines_pairing`).
-/

namespace VertexSweep

/-- The members of a set of words in ascending order. -/
def ascending (s : Finset UInt32) : List UInt32 := s.sort (· ≤ ·)

theorem eq_ascending {xs : List UInt32} {s : Finset UInt32}
    (hsorted : xs.Pairwise fun a b => a.toNat < b.toNat) (hmem : ∀ x, x ∈ xs ↔ x ∈ s) :
    xs = ascending s := by
  have hnodup := Candidates.ascending_nodup hsorted
  have hset : xs.toFinset = s := by
    ext x
    rw [List.mem_toFinset, hmem]
  rw [ascending, ← hset]
  refine ((List.toFinset_sort _ hnodup).2 ?_).symm
  exact hsorted.imp fun hlt => UInt32.le_iff_toNat_le.2 (Nat.le_of_lt hlt)

@[simp]
theorem length_ascending {s : Finset UInt32} : (ascending s).length = s.card := Finset.length_sort _

/-- The pairs of vertices and candidates that a table stands for. -/
structure Pairing where
  capacity : Nat
  width : Nat
  pairs : Finset (VertexId × PatternId) := ∅
  isSealed : Bool := false

namespace Pairing

variable {r : Pairing} {u : VertexId} {p : PatternId}

/-- The vertices that have a candidate. -/
def vertices (r : Pairing) : Finset VertexId := r.pairs.image Prod.fst

def candidates (r : Pairing) (u : VertexId) : Finset PatternId :=
  (r.pairs.filter (·.1 = u)).image Prod.snd

/-- The vertices of which `p` is a candidate. -/
def matchesOf (r : Pairing) (p : PatternId) : Finset VertexId :=
  (r.pairs.filter (·.2 = p)).image Prod.fst

/-- An addition puts the pair into the set and says whether it was new, unless the pair lies outside
of the dimensions or the pairing is sealed. A removal takes the pair out and says whether it was
there, unless the candidate lies outside of the width or the vertex has no pair at all. -/
def call (r : Pairing) : Candidates.Call → Candidates.Answer × Pairing
  | .add u p =>
    if r.capacity ≤ u.toNat then (some (.error (.misuse u .outsideTable)), r)
    else if r.width ≤ p.toNat then (some (.error (.patternOutOfRange p r.width)), r)
    else if r.isSealed then (some (.error (.misuse u .seededAfterSeal)), r)
    else (some (.ok (decide ((u, p) ∉ r.pairs))), { r with pairs := insert (u, p) r.pairs })
  | .prune u p =>
    if r.width ≤ p.toNat then (some (.error (.patternOutOfRange p r.width)), r)
    else if u ∉ r.vertices then (some (.error (.misuse u .prunedWithoutCandidates)), r)
    else (some (.ok (decide ((u, p) ∈ r.pairs))), { r with pairs := r.pairs.erase (u, p) })
  | .close => (none, { r with isSealed := true })

theorem mem_vertices : u ∈ r.vertices ↔ ∃ p, (u, p) ∈ r.pairs := by
  simp [vertices]

theorem mem_candidates : p ∈ r.candidates u ↔ (u, p) ∈ r.pairs := by
  simp [candidates]

theorem mem_matchesOf : u ∈ r.matchesOf p ↔ (u, p) ∈ r.pairs := by
  simp [matchesOf]

theorem card_candidates : (r.candidates u).card = (r.pairs.filter (·.1 = u)).card := by
  refine Finset.card_image_of_injOn ?_
  rintro ⟨v, p⟩ hp ⟨w, q⟩ hq heq
  simp only [Finset.coe_filter, Set.mem_ofPred_eq] at hp hq
  exact Prod.ext (hp.2.trans hq.2.symm) heq

/-- The pairs are counted vertex by vertex. -/
theorem card_pairs : r.pairs.card = ∑ u ∈ r.vertices, (r.candidates u).card := by
  rw [Finset.card_eq_sum_card_image Prod.fst]
  exact Finset.sum_congr rfl fun u _ => card_candidates.symm

end Pairing

namespace Candidates

variable {t : Candidates} {r : Pairing} {u : VertexId} {p : PatternId}

/-! ## What a table answers -/

/-- All that `t` can be asked is a view of `r`. -/
structure Represents (t : Candidates) (r : Pairing) : Prop where
  capacity : t.capacity = r.capacity
  width : t.width = r.width
  isSealed : t.isSealed = r.isSealed
  isLive : ∀ u, t.isLive u = decide (u ∈ r.vertices)
  contains : ∀ u p, t.contains u p = decide ((u, p) ∈ r.pairs)
  requireCandidates : ∀ u, t.requireCandidates u =
    if u ∈ r.vertices then .ok (ascending (r.candidates u))
    else .error (.misuse u .readWithoutCandidates)
  candidatesOf : ∀ u, t.candidatesOf u = ascending (r.candidates u)
  count : ∀ u, t.count u = (r.candidates u).card
  liveVertices : t.liveVertices = ascending r.vertices
  liveCount : t.liveCount = r.vertices.card
  liveSets : t.liveSets = (ascending r.vertices).map fun u => (u, ascending (r.candidates u))
  matchesOf : ∀ p, t.matchesOf p = ascending (r.matchesOf p)
  total : t.total = r.pairs.card
  allocated : t.allocated = r.vertices.card

/-- `t` is well formed and has the pairs of `r`. -/
structure Tracks (t : Candidates) (r : Pairing) : Prop where
  wf : t.WF
  capacity : t.capacity = r.capacity
  width : t.width = r.width
  isSealed : t.isSealed = r.isSealed
  contains : ∀ u p, t.contains u p = true ↔ (u, p) ∈ r.pairs

theorem count_eq_length : t.count u = (t.candidatesOf u).length := by
  rw [count, IdSet.size_eq, candidatesOf, List.length_map]

theorem liveCount_eq_length : t.liveCount = t.liveVertices.length := by
  rw [liveCount, IdSet.size_eq, liveVertices, List.length_map]

theorem total_eq_sum : t.total = (t.liveVertices.map t.count).sum := by
  rw [total, List.sum_eq_foldl, List.foldl_map]

theorem requireCandidates_of_isLive (h : t.WF) (hu : t.isLive u = true) :
    t.requireCandidates u = .ok (t.candidatesOf u) := by
  obtain ⟨i, hi⟩ := (h.indicator u.toNat).1 hu
  simp only [requireCandidates, slot?_eq_some_iff.2 hi]

theorem requireCandidates_of_not_isLive (h : t.WF) (hu : t.isLive u = false) :
    t.requireCandidates u = .error (.misuse u .readWithoutCandidates) := by
  simp only [requireCandidates, slot?_eq_none h hu]

namespace Tracks

theorem isLive (h : t.Tracks r) : t.isLive u = true ↔ u ∈ r.vertices := by
  rw [isLive_iff h.wf, Pairing.mem_vertices]
  exact exists_congr fun p => h.contains u p

theorem candidatesOf (h : t.Tracks r) (u : VertexId) :
    t.candidatesOf u = ascending (r.candidates u) :=
  eq_ascending (pairwise_candidatesOf h.wf) fun p => by
    rw [mem_candidatesOf h.wf, h.contains, Pairing.mem_candidates]

theorem liveVertices (h : t.Tracks r) : t.liveVertices = ascending r.vertices :=
  eq_ascending (pairwise_liveVertices h.wf) fun u => by rw [mem_liveVertices h.wf, h.isLive]

theorem count (h : t.Tracks r) (u : VertexId) : t.count u = (r.candidates u).card := by
  rw [count_eq_length, h.candidatesOf, length_ascending]

theorem matchesOf (h : t.Tracks r) (p : PatternId) :
    t.matchesOf p = ascending (r.matchesOf p) := by
  refine eq_ascending ((pairwise_liveVertices h.wf).filter _) fun u => ?_
  rw [Candidates.matchesOf, List.mem_filter, mem_liveVertices h.wf, h.isLive, h.contains,
    Pairing.mem_matchesOf, Pairing.mem_vertices]
  exact ⟨And.right, fun hp => ⟨⟨p, hp⟩, hp⟩⟩

theorem total (h : t.Tracks r) : t.total = r.pairs.card := by
  have hset : t.liveVertices.toFinset = r.vertices := by
    ext u
    rw [List.mem_toFinset, mem_liveVertices h.wf, h.isLive]
  calc t.total = (t.liveVertices.map t.count).sum := total_eq_sum
    _ = ∑ u ∈ t.liveVertices.toFinset, t.count u :=
      (List.sum_toFinset t.count (nodup_liveVertices h.wf)).symm
    _ = ∑ u ∈ r.vertices, (r.candidates u).card := by
      rw [hset]
      exact Finset.sum_congr rfl fun u _ => h.count u
    _ = r.pairs.card := Pairing.card_pairs.symm

theorem represents (h : t.Tracks r) : t.Represents r where
  capacity := h.capacity
  width := h.width
  isSealed := h.isSealed
  isLive u := by rw [Bool.eq_iff_iff, h.isLive, decide_eq_true_eq]
  contains u p := by rw [Bool.eq_iff_iff, h.contains, decide_eq_true_eq]
  requireCandidates u := by
    cases hu : t.isLive u with
    | true =>
      rw [requireCandidates_of_isLive h.wf hu, if_pos (h.isLive.1 hu), h.candidatesOf]
    | false =>
      have hnot : u ∉ r.vertices := fun hmem => by
        rw [h.isLive.2 hmem] at hu
        cases hu
      rw [requireCandidates_of_not_isLive h.wf hu, if_neg hnot]
  candidatesOf := h.candidatesOf
  count := h.count
  liveVertices := h.liveVertices
  liveCount := by rw [liveCount_eq_length, h.liveVertices, length_ascending]
  liveSets := by
    rw [liveSets, h.liveVertices]
    exact List.map_congr_left fun u _ => by rw [h.candidatesOf]
  matchesOf := h.matchesOf
  total := h.total
  allocated := by rw [h.wf.allocated_eq, h.liveVertices, length_ascending]

/-! ## One call and many -/

theorem ofCapacity (capacity width : Nat) :
    (ofCapacity capacity width).Tracks { capacity, width } where
  wf := .ofCapacity capacity width
  capacity := Array.size_replicate
  width := rfl
  isSealed := rfl
  contains u p := by simp

/-- An addition that both refuse changes neither. -/
private theorem add_refused (h : t.Tracks r) (fault : Fault)
    (hdefect : t.addDefect? u p = some fault)
    (hcall : r.call (.add u p) = (some (.error fault), r)) :
    (t.call (.add u p)).1 = (r.call (.add u p)).1 ∧
      (t.call (.add u p)).2.Tracks (r.call (.add u p)).2 := by
  rw [hcall, Candidates.call, add_of_addDefect?_eq_some hdefect]
  exact ⟨rfl, h⟩

theorem add (h : t.Tracks r) (u : VertexId) (p : PatternId) :
    (t.call (.add u p)).1 = (r.call (.add u p)).1 ∧
      (t.call (.add u p)).2.Tracks (r.call (.add u p)).2 := by
  by_cases hu : r.capacity ≤ u.toNat
  · exact h.add_refused (.misuse u .outsideTable) (by simp [addDefect?, h.capacity, hu])
      (by simp [Pairing.call, hu])
  by_cases hp : r.width ≤ p.toNat
  · exact h.add_refused (.patternOutOfRange p r.width)
      (by simp [addDefect?, h.capacity, h.width, hu, hp]) (by simp [Pairing.call, hu, hp])
  by_cases hsealed : r.isSealed = true
  · exact h.add_refused (.misuse u .seededAfterSeal)
      (by simp [addDefect?, h.capacity, h.width, h.isSealed, hu, hp, hsealed])
      (by simp [Pairing.call, hu, hp, hsealed])
  have hdefect : t.addDefect? u p = none := by
    simp [addDefect?, h.capacity, h.width, h.isSealed, hu, hp, hsealed]
  have hcall : r.call (.add u p) =
      (some (.ok (decide ((u, p) ∉ r.pairs))), { r with pairs := insert (u, p) r.pairs }) := by
    simp [Pairing.call, hu, hp, hsealed]
  obtain ⟨hanswer, hwf, hcontains⟩ := add_of_addDefect?_eq_none h.wf hdefect
  obtain ⟨hcapacity, hwidth, hopen⟩ := shape_add (t := t) (u := u) (p := p)
  rw [hcall]
  refine ⟨?_, ⟨hwf, hcapacity.trans h.capacity, hwidth.trans h.width, hopen.trans h.isSealed, ?_⟩⟩
  · have hnew : (!t.contains u p) = decide ((u, p) ∉ r.pairs) := by
      rw [Bool.eq_iff_iff, Bool.not_eq_true', ← Bool.not_eq_true, h.contains, decide_eq_true_eq]
    rw [Candidates.call, hanswer, hnew]
  · intro v q
    rw [Candidates.call, hcontains, h.contains, Finset.mem_insert, Prod.mk.injEq, or_comm]

theorem prune (h : t.Tracks r) (u : VertexId) (p : PatternId) :
    (t.call (.prune u p)).1 = (r.call (.prune u p)).1 ∧
      (t.call (.prune u p)).2.Tracks (r.call (.prune u p)).2 := by
  by_cases hp : r.width ≤ p.toNat
  · have hcall : r.call (.prune u p) = (some (.error (.patternOutOfRange p r.width)), r) := by
      simp [Pairing.call, hp]
    rw [hcall, Candidates.call, prune_of_width_le (h.width ▸ hp), h.width]
    exact ⟨rfl, h⟩
  have hp' : p.toNat < t.width := h.width ▸ Nat.not_le.1 hp
  by_cases hu : u ∈ r.vertices
  · have hcall : r.call (.prune u p) =
        (some (.ok (decide ((u, p) ∈ r.pairs))), { r with pairs := r.pairs.erase (u, p) }) := by
      simp [Pairing.call, hp, hu]
    obtain ⟨hanswer, hwf, hcontains⟩ := prune_of_isLive h.wf hp' (h.isLive.2 hu)
    obtain ⟨hcapacity, hwidth, -⟩ := shape_prune (t := t) (u := u) (p := p)
    rw [hcall]
    refine ⟨?_, ⟨hwf, hcapacity.trans h.capacity, hwidth.trans h.width,
      isSealed_prune.trans h.isSealed, ?_⟩⟩
    · have hold : t.contains u p = decide ((u, p) ∈ r.pairs) := by
        rw [Bool.eq_iff_iff, h.contains, decide_eq_true_eq]
      rw [Candidates.call, hanswer, hold]
    · intro v q
      rw [Candidates.call, hcontains, h.contains, Finset.mem_erase, ne_eq, Prod.mk.injEq, and_comm]
  · have hcall : r.call (.prune u p) = (some (.error (.misuse u .prunedWithoutCandidates)), r) := by
      simp [Pairing.call, hp, hu]
    have hdead : t.isLive u = false := by
      rw [← Bool.not_eq_true, h.isLive]
      exact hu
    rw [hcall, Candidates.call, prune_of_not_isLive h.wf hp' hdead]
    exact ⟨rfl, h⟩

/-- A call gets the same answer from a table and from its pairing, and tracking goes on. -/
theorem call (h : t.Tracks r) (c : Call) :
    (t.call c).1 = (r.call c).1 ∧ (t.call c).2.Tracks (r.call c).2 := by
  cases c with
  | add u p => exact h.add u p
  | prune u p => exact h.prune u p
  | close => exact ⟨rfl, { h with wf := wf_sealed.2 h.wf, isSealed := rfl }⟩

theorem callAll (h : t.Tracks r) (cs : List Call) :
    (callAll Candidates.call t cs).1 = (callAll Pairing.call r cs).1 ∧
      (callAll Candidates.call t cs).2.Tracks (callAll Pairing.call r cs).2 := by
  induction cs generalizing t r with
  | nil => exact ⟨rfl, h⟩
  | cons c cs ih =>
    obtain ⟨hanswer, hnext⟩ := h.call c
    obtain ⟨hanswers, hend⟩ := ih hnext
    exact ⟨List.cons_eq_cons.2 ⟨hanswer, hanswers⟩, hend⟩

end Tracks

/-- A call that fails leaves the table as it was. -/
theorem call_of_error (h : t.WF) {c : Call} {fault : Fault}
    (hfails : (t.call c).1 = some (.error fault)) : (t.call c).2 = t := by
  cases c with
  | add u p =>
    cases hdefect : t.addDefect? u p with
    | none =>
      rw [call, (add_of_addDefect?_eq_none h hdefect).1] at hfails
      cases hfails
    | some fault => rw [call, add_of_addDefect?_eq_some hdefect]
  | prune u p =>
    by_cases hp : p.toNat < t.width
    · cases hu : t.isLive u with
      | true =>
        rw [call, (prune_of_isLive h hp hu).1] at hfails
        cases hfails
      | false => rw [call, prune_of_not_isLive h hp hu]
    · rw [call, prune_of_width_le (Nat.not_lt.1 hp)]
  | close => cases hfails

/-- **A table is its set of pairs.** After every history the calls have been answered as by the
pairing, all that the table can be asked is a view of the pairing, and another call that fails
leaves the table as it is. -/
theorem refines_pairing (capacity width : Nat) (cs : List Call) :
    (callAll call (ofCapacity capacity width) cs).1 =
        (callAll Pairing.call { capacity, width } cs).1 ∧
      (callAll call (ofCapacity capacity width) cs).2.Represents
        (callAll Pairing.call { capacity, width } cs).2 ∧
      ∀ c fault,
        ((callAll call (ofCapacity capacity width) cs).2.call c).1 = some (.error fault) →
        ((callAll call (ofCapacity capacity width) cs).2.call c).2 =
          (callAll call (ofCapacity capacity width) cs).2 := by
  obtain ⟨hanswers, htracks⟩ := (Tracks.ofCapacity capacity width).callAll cs
  exact ⟨hanswers, htracks.represents, fun c fault hfails => call_of_error htracks.wf hfails⟩

/-- A set that was given back serves another vertex, and a sealed table takes no more pairs. -/
example : (callAll call (ofCapacity 3 2)
    [.add 0 0, .prune 0 0, .prune 0 0, .add 1 1, .close, .add 2 0]).1 =
      [some (.ok true), some (.ok true), some (.error (.misuse 0 .prunedWithoutCandidates)),
        some (.ok true), none, some (.error (.misuse 2 .seededAfterSeal))] := by
  decide +kernel

end Candidates

end VertexSweep
