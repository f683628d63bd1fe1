import Mathlib.Data.List.Sort
import VertexSweep.Proofs.Sweep.Turns

/-!
# The first sweep

Iteration 0 begins with everyone due, and a dense run updates everyone in it. A selective run need
not: an update of iteration 0 can take vertices out that have not had their turn, and the largest
word is never due. `VertexProgram.updated_first_iff` says when nobody is left out.
-/

namespace VertexSweep

variable {σ V E : Type} {program : VertexProgram σ V E} {settings : Settings}

/-- Vertices are words, so there are not more of them. -/
private theorem le_of_map_toNat_eq_range {vs : List VertexId} {n : Nat}
    (h : vs.map (·.toNat) = List.range n) : n ≤ 4294967296 := by
  refine Nat.le_of_not_lt fun hn => ?_
  have hmem : 4294967296 ∈ vs.map (·.toNat) := by rwa [h, List.mem_range]
  obtain ⟨v, -, hv⟩ := List.mem_map.1 hmem
  exact Nat.ne_of_lt v.toNat_lt hv

/-- Ascending vertices below `n` are all of them if none is missing. -/
private theorem map_toNat_eq_range_iff {vs : List VertexId} {n : Nat} (hn : n ≤ 4294967296)
    (hascending : vs.Pairwise (· < ·)) (hlt : ∀ v ∈ vs, v.toNat < n) :
    vs.map (·.toNat) = List.range n ↔ ∀ v : VertexId, v.toNat < n → v ∈ vs := by
  constructor
  · intro heq v hv
    have hmem : v.toNat ∈ vs.map (·.toNat) := by rwa [heq, List.mem_range]
    obtain ⟨w, hw, hsame⟩ := List.mem_map.1 hmem
    exact UInt32.toNat_inj.1 hsame ▸ hw
  · intro hall
    have hnumbers : (vs.map (·.toNat)).Pairwise (· < ·) :=
      List.pairwise_map.2 (hascending.imp UInt32.lt_iff_toNat_lt.1)
    refine hnumbers.eq_of_mem_iff List.pairwise_lt_range fun k => ?_
    rw [List.mem_map, List.mem_range]
    constructor
    · rintro ⟨v, hv, rfl⟩
      exact hlt v hv
    · intro hk
      have hword : (UInt32.ofNat k).toNat = k :=
        UInt32.toNat_ofNat_of_lt' (Nat.lt_of_lt_of_le hk hn)
      exact ⟨_, hall _ (hword.symm ▸ hk), hword⟩

namespace Chronicle

variable {c : Chronicle σ V E} {n i : Nat}

theorem completes_iff {run : Finished σ V E} (h : c.result = .ok run) :
    c.Completes i ↔ i < run.report.rounds.size := by
  rw [Completes, h]

/-- In a completed iteration everyone has a turn who ought to have one. -/
theorem Faithful.map_updated_eq_range_iff (h : c.Faithful settings n) (hn : n ≤ 4294967296)
    (hi : c.Completes i) : (c.history.updated i).map (·.toNat) = List.range n ↔
      ∀ v : VertexId, v.toNat < n → c.history.HasTurn settings i v := by
  have hmem : ∀ v, v ∈ c.history.updated i ↔ v.toNat < n ∧ c.history.HasTurn settings i v := by
    intro v
    have hreach : c.Reaches i v := .inl hi
    rw [h.mem_updated_iff, and_iff_right hreach]
  rw [map_toNat_eq_range_iff hn (h.ascending i) fun v hv => ((hmem v).1 hv).1]
  refine forall_congr' fun v => forall_congr' fun hv => ?_
  rw [hmem, and_iff_right hv]

end Chronicle

/-- In iteration 0 everyone ought to be updated who is not taken out for good. -/
theorem History.forall_hasTurn_first_iff {h : History} {n : Nat} :
    (∀ v : VertexId, v.toNat < n → h.HasTurn settings 0 v) ↔
      (settings.selective = true → n ≤ maxWord ∧
        ∀ v : VertexId, v.toNat < n → (h.signals 0 v).getLast? ≠ some .removal) := by
  constructor
  · intro hturn hselective
    refine ⟨Nat.le_of_not_lt fun hn => ?_, fun v hv hremoved => ?_⟩
    · exact Nat.lt_irrefl _ (hturn 4294967295 hn hselective).1
    · rw [(hturn v hv hselective).2] at hremoved
      cases hremoved
  · intro hkept v hv hselective
    obtain ⟨hn, hlast⟩ := hkept hselective
    exact ⟨Nat.lt_of_lt_of_le hv hn, getLast?_signals rfl (hlast v hv)⟩

namespace VertexProgram

variable [Inhabited V] {graph : DataGraph V E} {state : σ}

/-- **Who is left out of the first sweep.** Once iteration 0 is completed, everyone has been updated
in it, once and in ascending order, if and only if there are enough words for all the vertices and,
in a selective run, nobody is the largest word or was taken out for good before its turn. In that
case the summary counts everyone. -/
theorem updated_first_iff {c : Chronicle σ V E}
    (hc : program.chronicle settings state graph = c) (hfirst : c.Completes 0) :
    c.result = program.run settings state graph ∧
      ((c.history.updated 0).map (·.toNat) = List.range graph.adjacency.vertexCount ↔
        graph.adjacency.vertexCount ≤ 4294967296 ∧
          (settings.selective = true → graph.adjacency.vertexCount ≤ maxWord ∧
            ∀ v : VertexId, v.toNat < graph.adjacency.vertexCount →
              (c.history.signals 0 v).getLast? ≠ some .removal)) ∧
      ∀ run, c.result = .ok run →
        (c.history.updated 0).map (·.toNat) = List.range graph.adjacency.vertexCount →
        ∃ round, run.report.rounds[0]? = some round ∧
          round.visited = graph.adjacency.vertexCount := by
  have hfaithful (hn : graph.adjacency.vertexCount ≤ 4294967296) :
      c.Faithful settings graph.adjacency.vertexCount := hc ▸ chronicle_faithful hn
  refine ⟨hc ▸ result_chronicle .., ?_, ?_⟩
  · constructor
    · intro hall
      have hn := le_of_map_toNat_eq_range hall
      have hturn := ((hfaithful hn).map_updated_eq_range_iff hn hfirst).1 hall
      exact ⟨hn, History.forall_hasTurn_first_iff.1 hturn⟩
    · rintro ⟨hn, hkept⟩
      have hturn := History.forall_hasTurn_first_iff.2 hkept
      exact ((hfaithful hn).map_updated_eq_range_iff hn hfirst).2 hturn
  · intro run hrun hall
    have hround := Array.getElem?_eq_getElem ((Chronicle.completes_iff hrun).1 hfirst)
    refine ⟨_, hround, ?_⟩
    have hcounted := (hfaithful (le_of_map_toNat_eq_range hall)).counted run hrun 0 _ hround
    rw [hcounted, ← List.length_map (·.toNat), hall, List.length_range]

/-- In iteration 0, vertex 0 takes the others out, and brings 1 back, and vertex 1 brings 2 back. -/
def comeback : Script.Source where
  rules := [
    { iteration := .only 0, vertex := .only 0, actions := [
      .untask (.literal 1) (.literal 2), .task (.literal 1) true] },
    { iteration := .only 0, vertex := .only 1, actions := [.task (.literal 2) true] }]

theorem updated_first_iff_comeback : ∃ (c : Chronicle Script.Log UInt32 UInt32) (run : _),
    comeback.program.chronicle { selective := true } #[] (.ofAdjacency (.ofEdges 3 #[])) = c ∧
      c.result = .ok run ∧ c.Completes 0 ∧
      c.history.signals 0 2 = [.activation, .removal, .activation] ∧
      (c.history.updated 0).map (·.toNat) = List.range 3 ∧
      ∃ round, run.report.rounds[0]? = some round ∧ round.visited = 3 := by
  have hrun : (comeback.program.chronicle { selective := true } #[]
      (.ofAdjacency (.ofEdges 3 #[]))).result.toOption.any (0 < ·.report.rounds.size) = true ∧
      (comeback.program.chronicle { selective := true } #[]
        (.ofAdjacency (.ofEdges 3 #[]))).history.signals 0 2 =
          [.activation, .removal, .activation] ∧
      ∀ k < 3, ((comeback.program.chronicle { selective := true } #[]
        (.ofAdjacency (.ofEdges 3 #[]))).history.signals 0 (UInt32.ofNat k)).getLast? ≠
          some .removal := by
    decide +kernel
  generalize hc : comeback.program.chronicle { selective := true } #[]
    (.ofAdjacency (.ofEdges 3 #[])) = c at hrun
  obtain ⟨hends, hsignals, hkept⟩ := hrun
  obtain ⟨run, hrun, hrounds⟩ := Yields.exists_ok_of_any hends
  have hfirst := (Chronicle.completes_iff hrun).2 (of_decide_eq_true hrounds)
  obtain ⟨-, hiff, hvisited⟩ := updated_first_iff hc hfirst
  have hall := hiff.2 ⟨by decide, fun _ => ⟨by decide, fun v hv => by
    have hlast := hkept v.toNat hv
    rwa [UInt32.ofNat_toNat] at hlast⟩⟩
  exact ⟨c, run, rfl, hrun, hfirst, hsignals, hall, hvisited run hrun hall⟩

/-- In iteration 0, vertex 0 takes vertex 1 out. -/
def dropout : Script.Source where
  rules := [{ iteration := .only 0, vertex := .only 0, actions := [
    .untask (.literal 1) (.literal 1)] }]

/-- A selective run need not update everyone in iteration 0. -/
theorem updated_first_dropout : ∃ (c : Chronicle Script.Log UInt32 UInt32) (run : _) (round : _),
    dropout.program.chronicle { selective := true } #[] (.ofAdjacency (.ofEdges 2 #[])) = c ∧
      dropout.program.run { selective := true } #[] (.ofAdjacency (.ofEdges 2 #[])) = .ok run ∧
      c.Completes 0 ∧ c.history.updated 0 = [0] ∧
      run.report.rounds[0]? = some round ∧ round.visited = 1 := by
  have hfacts : (dropout.program.chronicle { selective := true } #[]
      (.ofAdjacency (.ofEdges 2 #[]))).result.toOption.any
        (·.report.rounds[0]?.any (·.visited == 1)) = true ∧
      (dropout.program.chronicle { selective := true } #[]
        (.ofAdjacency (.ofEdges 2 #[]))).history.updated 0 = [0] := by
    decide +kernel
  have hresult := dropout.program.result_chronicle { selective := true } #[]
    (.ofAdjacency (.ofEdges 2 #[]))
  generalize dropout.program.chronicle { selective := true } #[]
    (.ofAdjacency (.ofEdges 2 #[])) = c at hfacts hresult
  obtain ⟨hends, hupdated⟩ := hfacts
  obtain ⟨run, hrun, hrounds⟩ := Yields.exists_ok_of_any hends
  obtain ⟨round, hround, hvisited⟩ := (Option.any_eq_true ..).1 hrounds
  have hfirst := (Chronicle.completes_iff hrun).2 (Array.getElem?_eq_some_iff.1 hround).1
  exact ⟨c, run, round, rfl, hresult.symm.trans hrun, hfirst, hupdated, hround,
    beq_iff_eq.1 hvisited⟩

end VertexProgram

end VertexSweep
