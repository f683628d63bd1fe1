import Mathlib.Data.Fintype.Card
import Mathlib.Logic.Relation
import Mathlib.Order.Bounds.Basic
import VertexSweep.Proofs.Graph.Links

/-!
# Walks and connections

What the edges of a list connect: directed walks with their numbers of edges (`EdgeList.Walk`),
the least of these numbers (`EdgeList.IsDistance`), reachability (`EdgeList.Reaches`) and weak
connection (`EdgeList.Linked`). On the way of a shortest walk there is a vertex at every smaller
distance, so that distances stay below the vertex count (`EdgeList.IsDistance.lt_vertexCount`).
Weak connection is reachability along edges that lead both ways (`EdgeList.reaches_bothWays_iff`),
so that it has walks and distances too.
-/

namespace VertexSweep.EdgeList

variable {l : EdgeList} {s u v : VertexId} {h i : Nat}

/-- The data graph of the list. -/
abbrev graph (l : EdgeList) : Adjacency := .ofEdges l.vertexCount l.edges

/-- There is a directed walk of `h` edges from `s` to the vertex. -/
inductive Walk (l : EdgeList) (s : VertexId) : VertexId → Nat → Prop where
  | nil : Walk l s s 0
  | snoc {u v : VertexId} {h : Nat} : Walk l s u h → (u, v) ∈ l.edges → Walk l s v (h + 1)

/-- The shortest walks from `s` to `v` have `h` edges. -/
def IsDistance (l : EdgeList) (s v : VertexId) (h : Nat) : Prop := IsLeast {h | l.Walk s v h} h

/-- There is a directed path from `u` to `v`, which may be empty. -/
def Reaches (l : EdgeList) : VertexId → VertexId → Prop :=
  Relation.ReflTransGen fun u v => (u, v) ∈ l.edges

/-- `u` and `v` are weakly connected: joined by edges, whichever way these point. -/
def Linked (l : EdgeList) : VertexId → VertexId → Prop :=
  Relation.EqvGen fun u v => (u, v) ∈ l.edges

theorem Walk.eq_of_zero (hwalk : l.Walk s v 0) : v = s := by
  cases hwalk with
  | nil => rfl

theorem Walk.lt_vertexCount (hwalk : l.Walk s v h) (hl : l.Built) (hs : s.toNat < l.vertexCount) :
    v.toNat < l.vertexCount := by
  cases hwalk with
  | nil => exact hs
  | snoc _ hedge => exact (hl.lt_vertexCount hedge).2

theorem Walk.exists_isDistance (hwalk : l.Walk s v h) : ∃ d ≤ h, l.IsDistance s v d := by
  classical
  have hexists : ∃ d, l.Walk s v d := ⟨h, hwalk⟩
  refine ⟨Nat.find hexists, Nat.find_min' hexists hwalk, Nat.find_spec hexists, ?_⟩
  exact fun d hd => Nat.find_min' hexists hd

/-- The vertex before the last on a shortest walk is one edge closer. -/
theorem IsDistance.exists_pred (hdist : l.IsDistance s v (h + 1)) :
    ∃ u, (u, v) ∈ l.edges ∧ l.IsDistance s u h := by
  obtain ⟨hwalk, hleast⟩ := hdist
  cases hwalk with
  | snoc hwalk hedge =>
    refine ⟨_, hedge, hwalk, fun d hd => ?_⟩
    have hle : h + 1 ≤ d + 1 := hleast (Walk.snoc hd hedge)
    omega

theorem IsDistance.exists_of_le (hdist : l.IsDistance s v h) (hi : i ≤ h) :
    ∃ u, l.IsDistance s u i := by
  induction h generalizing v with
  | zero =>
    obtain rfl : i = 0 := by omega
    exact ⟨v, hdist⟩
  | succ h ih =>
    rcases Nat.lt_or_eq_of_le hi with hlt | rfl
    · obtain ⟨u, -, hu⟩ := hdist.exists_pred
      exact ih hu (by omega)
    · exact ⟨v, hdist⟩

/-- Distances stay below the vertex count. -/
theorem IsDistance.lt_vertexCount (hdist : l.IsDistance s v h) (hl : l.Built)
    (hs : s.toNat < l.vertexCount) : h < l.vertexCount := by
  have hexists : ∀ i : Fin (h + 1), ∃ u, l.IsDistance s u i := fun i =>
    hdist.exists_of_le (Nat.le_of_lt_succ i.isLt)
  choose f hf using hexists
  -- Vertices at different distances are different.
  have hinjective : Function.Injective fun i =>
      (⟨(f i).toNat, (hf i).1.lt_vertexCount hl hs⟩ : Fin l.vertexCount) := by
    intro i j heq
    have hsame : f i = f j := UInt32.toNat_inj.1 (Fin.mk.inj heq)
    have hi := hf i
    rw [hsame] at hi
    exact Fin.ext (hi.unique (hf j))
  have hcard := Fintype.card_le_of_injective _ hinjective
  rw [Fintype.card_fin, Fintype.card_fin] at hcard
  exact hcard

theorem Reaches.lt_vertexCount (hreach : l.Reaches u v) (hl : l.Built)
    (hv : v.toNat < l.vertexCount) : u.toNat < l.vertexCount := by
  rcases hreach.cases_head with rfl | ⟨w, hedge, -⟩
  · exact hv
  · exact (hl.lt_vertexCount hedge).1

theorem Linked.lt_vertexCount_iff (hlinked : l.Linked u v) (hl : l.Built) :
    u.toNat < l.vertexCount ↔ v.toNat < l.vertexCount := by
  induction hlinked with
  | rel u v hedge => exact iff_of_true (hl.lt_vertexCount hedge).1 (hl.lt_vertexCount hedge).2
  | refl u => exact Iff.rfl
  | symm _ _ _ ih => exact ih.symm
  | trans _ _ _ _ _ ih ih' => exact ih.trans ih'

theorem reaches_iff_exists_walk : l.Reaches u v ↔ ∃ h, l.Walk u v h := by
  constructor
  · intro hreach
    induction hreach with
    | refl => exact ⟨0, .nil⟩
    | tail _ hedge ih =>
      obtain ⟨h, hwalk⟩ := ih
      exact ⟨h + 1, hwalk.snoc hedge⟩
  · rintro ⟨h, hwalk⟩
    induction hwalk with
    | nil => exact .refl
    | snoc _ hedge ih => exact ih.tail hedge

/-! ## Edges that lead both ways -/

/-- The edges of the list, and then the same edges turned round. -/
def bothWays (l : EdgeList) : EdgeList := l.edges.foldl (fun l' e => l'.push e.2 e.1) l

theorem built_bothWays (hl : l.Built) : l.bothWays.Built := by
  rw [bothWays, ← Array.foldl_toList]
  exact hl.foldl_push (f := Prod.swap)

theorem mem_bothWays : (u, v) ∈ l.bothWays.edges ↔ (u, v) ∈ l.edges ∨ (v, u) ∈ l.edges := by
  have hmem : ∀ (turned : List (VertexId × VertexId)) (l : EdgeList),
      (u, v) ∈ (turned.foldl (fun l' e => l'.push e.2 e.1) l).edges ↔
        (u, v) ∈ l.edges ∨ (v, u) ∈ turned := by
    intro turned
    induction turned with
    | nil => simp
    | cons e turned ih =>
      intro l
      rw [List.foldl_cons, ih, push, Array.mem_push, List.mem_cons, or_assoc]
      simp [Prod.ext_iff, and_comm]
  rw [bothWays, ← Array.foldl_toList, hmem, Array.mem_toList_iff]

/-- An edge that is turned round leads to no new vertex. -/
theorem vertexCount_bothWays (hl : l.Built) : l.bothWays.vertexCount = l.vertexCount := by
  have hcount : ∀ (turned : List (VertexId × VertexId)) (l : EdgeList),
      (∀ e ∈ turned, e.1.toNat < l.vertexCount ∧ e.2.toNat < l.vertexCount) →
      (turned.foldl (fun l' e => l'.push e.2 e.1) l).vertexCount = l.vertexCount := by
    intro turned
    induction turned with
    | nil => exact fun _ _ => rfl
    | cons e turned ih =>
      intro l hturned
      obtain ⟨hsource, htarget⟩ := hturned e List.mem_cons_self
      have hpush : (l.push e.2 e.1).vertexCount = l.vertexCount := by
        simp only [push]
        omega
      rw [List.foldl_cons, ih, hpush]
      exact fun e he => hpush ▸ hturned e (List.mem_cons_of_mem _ he)
  rw [bothWays, ← Array.foldl_toList, hcount]
  exact fun e he => hl.lt_vertexCount (Array.mem_toList_iff.1 he)

theorem reaches_bothWays_iff : l.bothWays.Reaches u v ↔ l.Linked u v := by
  have hedges : (fun u v => (u, v) ∈ l.bothWays.edges) =
      Relation.SymmGen fun u v => (u, v) ∈ l.edges :=
    funext fun u => funext fun v => propext mem_bothWays
  rw [Reaches, hedges, Relation.EqvGen.reflTransGen_symmGen, Linked]

end VertexSweep.EdgeList
