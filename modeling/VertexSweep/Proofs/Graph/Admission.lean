import Mathlib.Data.List.Perm.Basic
import VertexSweep.Proofs.Graph.Links

/-!
# Which edge lists become graphs

An edge list keeps two counts while edges and reservations come in. Whatever their order is, the
reserved count is the greatest of those that were reserved, and the vertex count is the larger of
that one and the bound of the ids on the edges (`EdgeList.made_eq`). A list is refused if it has too
many edges, or if the bound of its ids is more than was reserved and more than the edges account for
(`DataGraph.refuses_iff`). So the order of the calls does not matter, and no reservation can make a
list be refused (`DataGraph.decides_made`).
-/

namespace VertexSweep

/-- The greatest of the numbers, zero if there are none. -/
def greatest (ns : List Nat) : Nat := ns.foldr max 0

theorem greatest_perm {ns ns' : List Nat} (h : ns'.Perm ns) : greatest ns' = greatest ns :=
  h.foldr_eq 0

theorem greatest_append (ns ns' : List Nat) :
    greatest (ns ++ ns') = max (greatest ns) (greatest ns') := by
  induction ns with
  | nil => exact (Nat.zero_max _).symm
  | cons n ns ih =>
    show max n (greatest (ns ++ ns')) = max (max n (greatest ns)) (greatest ns')
    rw [ih, Nat.max_assoc]

/-! ## Calls on edge lists -/

namespace EdgeList

inductive Call where
  | push (source target : VertexId)
  | reserve (n : Nat)
deriving DecidableEq, Repr

namespace Call

def edge? : Call → Option (VertexId × VertexId)
  | push source target => some (source, target)
  | reserve _ => none

def count? : Call → Option Nat
  | push _ _ => none
  | reserve n => some n

end Call

def call (l : EdgeList) : Call → EdgeList
  | .push source target => l.push source target
  | .reserve n => l.reserve n

/-- The list that is made by calls, from an empty one or from one with a reserved count. -/
def made : Option Nat → List Call → EdgeList
  | none, calls => calls.foldl call .empty
  | some n, calls => calls.foldl call (.ofVertexCount n)

/-- The edges that are pushed. -/
def pushed (calls : List Call) : List (VertexId × VertexId) := calls.filterMap Call.edge?

/-- The greatest count that is reserved, at the start or by a call. -/
def reservation (start : Option Nat) (calls : List Call) : Nat :=
  greatest (start.toList ++ calls.filterMap Call.count?)

/-- One more than the greatest endpoint of the edges. -/
def idBound (edges : List (VertexId × VertexId)) : Nat :=
  greatest (edges.flatMap fun e => [e.1.toNat + 1, e.2.toNat + 1])

variable {l : EdgeList} {start : Option Nat} {calls calls' : List Call} {V E : Type}

theorem idBound_cons (e : VertexId × VertexId) (edges : List (VertexId × VertexId)) :
    idBound (e :: edges) = max (max (e.1.toNat + 1) (e.2.toNat + 1)) (idBound edges) := by
  show max _ (max _ (idBound edges)) = _
  rw [Nat.max_assoc]

theorem idBound_perm {edges edges' : List (VertexId × VertexId)} (h : edges'.Perm edges) :
    idBound edges' = idBound edges :=
  greatest_perm (h.flatMap_right _)

theorem foldl_call (calls : List Call) (l : EdgeList) : calls.foldl call l =
    { reserved := max l.reserved (greatest (calls.filterMap Call.count?))
      vertexCount := max (max l.vertexCount (greatest (calls.filterMap Call.count?)))
        (idBound (pushed calls))
      edges := l.edges ++ (pushed calls).toArray } := by
  induction calls generalizing l with
  | nil => simp [greatest, idBound, pushed]
  | cons c calls ih =>
    rw [List.foldl_cons, ih]
    cases c with
    | push source target =>
      have hpushed : pushed (.push source target :: calls) = (source, target) :: pushed calls := rfl
      have hcounts : (Call.push source target :: calls).filterMap Call.count? =
        calls.filterMap Call.count? := rfl
      rw [hpushed, hcounts, idBound_cons]
      simp only [call, push, EdgeList.mk.injEq]
      exact ⟨trivial, by ac_rfl, by simp⟩
    | reserve n =>
      have hpushed : pushed (.reserve n :: calls) = pushed calls := rfl
      have hcounts : greatest ((Call.reserve n :: calls).filterMap Call.count?) =
        max n (greatest (calls.filterMap Call.count?)) := rfl
      rw [hpushed, hcounts]
      simp only [call, reserve, EdgeList.mk.injEq]
      exact ⟨by ac_rfl, by ac_rfl, trivial⟩

/-- What calls make, told without their order. -/
theorem made_eq (start : Option Nat) (calls : List Call) : made start calls =
    { reserved := reservation start calls
      vertexCount := max (reservation start calls) (idBound (pushed calls))
      edges := (pushed calls).toArray } := by
  rw [reservation, greatest_append]
  cases start with
  | none =>
    rw [made, foldl_call]
    simp [empty, greatest]
  | some n =>
    rw [made, foldl_call]
    simp [ofVertexCount, greatest]

theorem reservation_perm (h : calls'.Perm calls) :
    reservation start calls' = reservation start calls :=
  greatest_perm ((h.filterMap _).append_left _)

theorem made_concat {c : Call} : made start (calls ++ [c]) = (made start calls).call c := by
  cases start <;> exact List.foldl_concat ..

theorem Built.foldl_call (h : l.Built) : (calls.foldl call l).Built := by
  induction calls generalizing l with
  | nil => exact h
  | cons c calls ih =>
    cases c with
    | push source target => exact ih (h.push source target)
    | reserve n => exact ih (h.reserve n)

/-- The lists that the operations make are those that calls make. -/
theorem built_iff : l.Built ↔ ∃ start calls, l = made start calls := by
  constructor
  · intro h
    induction h with
    | empty => exact ⟨none, [], rfl⟩
    | ofVertexCount n => exact ⟨some n, [], rfl⟩
    | push source target _ ih =>
      obtain ⟨start, calls, rfl⟩ := ih
      refine ⟨start, calls ++ [Call.push source target], ?_⟩
      rw [made_concat]
      rfl
    | reserve n _ ih =>
      obtain ⟨start, calls, rfl⟩ := ih
      refine ⟨start, calls ++ [Call.reserve n], ?_⟩
      rw [made_concat]
      rfl
  · rintro ⟨start, calls, rfl⟩
    cases start with
    | none => exact Built.empty.foldl_call
    | some n => exact (Built.ofVertexCount n).foldl_call

end EdgeList

/-! ## Acceptance -/

namespace DataGraph

variable {V E : Type} [Inhabited V] [Inhabited E] {l : EdgeList}

variable (V E) in
/-- The list becomes a graph. -/
def Accepts (l : EdgeList) : Prop := ∃ g : DataGraph V E, ofEdgeList l = .ok g

variable (V E) in
/-- The list is refused for a defect that it has as a graph. -/
def Refuses (l : EdgeList) : Prop :=
  ∃ defect, (ofEdgeList l : Except Fault (DataGraph V E)) = .error (.graph defect)

theorem refuses_iff : Refuses V E l ↔
    maxWord < l.size ∨ Adjacency.allowance l.size < l.vertexCount ∧ l.reserved < l.vertexCount := by
  unfold Refuses ofEdgeList Adjacency.ofEdgeList
  by_cases hedges : maxWord < l.size
  · rw [if_pos hedges]
    exact iff_of_true ⟨_, rfl⟩ (.inl hedges)
  by_cases hids : Adjacency.allowance l.size < l.vertexCount ∧ l.reserved < l.vertexCount
  · rw [if_neg hedges, if_pos hids]
    exact iff_of_true ⟨_, rfl⟩ (.inr hids)
  · rw [if_neg hedges, if_neg hids]
    refine iff_of_false ?_ (not_or.2 ⟨hedges, hids⟩)
    intro ⟨defect, h⟩
    split at h <;> cases h

/-- Apart from that, a graph only has to be addressable. -/
theorem accepts_iff : Accepts V E l ↔ ¬ Refuses V E l ∧ l.vertexCount < addressLimit := by
  by_cases hrefused : Refuses V E l
  · refine iff_of_false ?_ fun h => h.1 hrefused
    intro ⟨g, hg⟩
    obtain ⟨defect, hdefect⟩ := hrefused
    rw [hg] at hdefect
    cases hdefect
  · obtain ⟨hedges, hids⟩ := not_or.1 (refuses_iff.not.1 hrefused)
    unfold Accepts ofEdgeList Adjacency.ofEdgeList
    rw [if_neg hedges, if_neg hids]
    by_cases haddress : addressLimit ≤ l.vertexCount
    · rw [if_pos haddress]
      refine iff_of_false ?_ fun h => Nat.not_lt.2 haddress h.2
      intro ⟨g, hg⟩
      cases hg
    · rw [if_neg haddress]
      exact iff_of_true ⟨_, rfl⟩ ⟨hrefused, Nat.not_le.1 haddress⟩

/-- An accepted list has no more edges than there are words. -/
theorem size_le_of_ofEdgeList {g : DataGraph V E} (hg : ofEdgeList l = .ok g) :
    l.edges.size ≤ maxWord := by
  apply Nat.le_of_not_lt
  intro hlt
  exact (accepts_iff.1 ⟨g, hg⟩).1 (refuses_iff.2 (.inl hlt))

open EdgeList

variable {start start' : Option Nat} {calls calls' : List Call}

theorem refuses_made_iff : Refuses V E (made start calls) ↔ maxWord < (pushed calls).length ∨
    reservation start calls < idBound (pushed calls) ∧
      max 1048576 (64 * (pushed calls).length) < idBound (pushed calls) := by
  rw [refuses_iff, made_eq]
  simp only [size, List.size_toArray, Adjacency.allowance, Adjacency.verticesPerEdge,
    Adjacency.freeVertices]
  omega

theorem accepts_made_iff : Accepts V E (made start calls) ↔ ¬ Refuses V E (made start calls) ∧
    reservation start calls < addressLimit ∧ idBound (pushed calls) < addressLimit := by
  rw [accepts_iff, made_eq]
  exact and_congr_right fun _ => Nat.max_lt

/-- A greater reservation for the same edges. -/
theorem not_refuses_of_le (hedges : (pushed calls').Perm (pushed calls))
    (hle : reservation start calls ≤ reservation start' calls')
    (h : ¬ Refuses V E (made start calls)) : ¬ Refuses V E (made start' calls') := by
  rw [refuses_made_iff] at h ⊢
  rw [hedges.length_eq, idBound_perm hedges]
  omega

/-- **What calls make of an edge list, and whether it becomes a graph**, does not depend on the
order of the calls, and what is accepted is not refused when more is reserved. -/
theorem decides_made (start : Option Nat) (calls : List Call) :
    (made start calls).reserved = reservation start calls ∧
      (made start calls).vertexCount = max (reservation start calls) (idBound (pushed calls)) ∧
      (made start calls).edges.toList = pushed calls ∧
      (Refuses V E (made start calls) ↔ maxWord < (pushed calls).length ∨
        reservation start calls < idBound (pushed calls) ∧
          max 1048576 (64 * (pushed calls).length) < idBound (pushed calls)) ∧
      (Accepts V E (made start calls) ↔ ¬ Refuses V E (made start calls) ∧
        (made start calls).vertexCount < addressLimit) ∧
      (∀ calls', calls'.Perm calls →
        (Refuses V E (made start calls') ↔ Refuses V E (made start calls)) ∧
          (Accepts V E (made start calls') ↔ Accepts V E (made start calls))) ∧
      ∀ start' calls', (pushed calls').Perm (pushed calls) →
        reservation start calls ≤ reservation start' calls' → Accepts V E (made start calls) →
          ¬ Refuses V E (made start' calls') ∧
            (reservation start' calls' < addressLimit → Accepts V E (made start' calls')) := by
  refine ⟨by rw [made_eq], by rw [made_eq], by rw [made_eq], refuses_made_iff, accepts_iff,
    fun calls' hperm => ?_, fun start' calls' hedges hle haccepted => ?_⟩
  · have hedges : (pushed calls').Perm (pushed calls) := hperm.filterMap _
    have hrefuses : Refuses V E (made start calls') ↔ Refuses V E (made start calls) := by
      rw [refuses_made_iff, refuses_made_iff, hedges.length_eq, idBound_perm hedges,
        reservation_perm hperm]
    refine ⟨hrefuses, ?_⟩
    rw [accepts_made_iff, accepts_made_iff, hrefuses, idBound_perm hedges, reservation_perm hperm]
  · obtain ⟨hnot, -, hbound⟩ := accepts_made_iff.1 haccepted
    have hnot' : ¬ Refuses V E (made start' calls') := not_refuses_of_le hedges hle hnot
    refine ⟨hnot', fun haddress => accepts_made_iff.2 ⟨hnot', haddress, ?_⟩⟩
    rwa [idBound_perm hedges]

theorem decides_made_stray :
    Refuses Label Label (made none [.push 0 1100000]) ∧
      Accepts Label Label (made none [.push 0 1100000, .reserve 1100001]) ∧
      Accepts Label Label (made none [.reserve 1100001, .push 0 1100000]) ∧
      ¬ Refuses Label Label (made (some 7) [.push 0 1100000, .reserve addressLimit]) := by
  obtain ⟨-, -, -, hstray, -⟩ := decides_made (V := Label) (E := Label) none [.push 0 1100000]
  obtain ⟨-, -, -, hrefuses, haccepts, hperm, hmore⟩ :=
    decides_made (V := Label) (E := Label) none [.push 0 1100000, .reserve 1100001]
  have haccepted := haccepts.2 ⟨hrefuses.not.2 (by decide), by decide⟩
  exact ⟨hstray.2 (by decide), haccepted, (hperm _ (.swap ..)).2.2 haccepted,
    (hmore (some 7) [.push 0 1100000, .reserve addressLimit] (.refl _) (by decide) haccepted).1⟩

end DataGraph

end VertexSweep
