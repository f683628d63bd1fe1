import VertexSweep.Proofs.Bounds.Matching
import VertexSweep.Proofs.Bounds.Relaxations
import VertexSweep.Proofs.Match.Ending
import VertexSweep.Proofs.Relax.Coloring
import VertexSweep.Proofs.Relax.Components
import VertexSweep.Proofs.Relax.Distances

/-!
# Nothing fails once a graph is accepted

On the graph of an accepted edge list each program returns, whatever the settings are, and so does
a refinement that begins with any table at all. What it returns it returns with every access tested
(`Returns`), so no update fails, and no vertex, edge, slot or offset is looked up where there is
none (`returns_of_accepted`).
-/

namespace VertexSweep

/-- The computation returns, and returns the same with every access tested. -/
def Returns {α : Type} (plain : Except Fault α) (checked : Except (Trap Fault) α) : Prop :=
  ∃ a, plain = .ok a ∧ checked = .ok a

namespace Returns

variable {α : Type} {plain : Except Fault α} {checked : Except (Trap Fault) α} {a : α}

theorem of_eq (hchecked : checked = plain.mapError .failed) (hplain : plain = .ok a) :
    Returns plain checked :=
  ⟨a, hplain, by rw [hchecked, hplain]; rfl⟩

/-- A test of what is returned can be evaluated without the other tests. -/
theorem exists_of_any (h : Returns plain checked) (test : α → Bool)
    (htest : plain.toOption.any test = true) : ∃ a, checked = .ok a ∧ test a = true := by
  obtain ⟨a, hplain, hchecked⟩ := h
  rw [hplain] at htest
  exact ⟨a, hchecked, htest⟩

end Returns

variable {l : EdgeList} {g : Adjacency}

theorem Coloring.returns (hl : l.Built) (hn : l.vertexCount ≤ maxWord)
    (hg : Adjacency.ofEdgeList l = .ok g) (settings : Settings) :
    Returns (solve l settings) (checkedSolve l settings) := by
  obtain ⟨run, hrun, -⟩ := (law hl hn).solve_yields settings hn hg
  exact .of_eq (checkedSolve_eq hl hn settings) hrun

theorem Components.returns (hl : l.Built) (hn : l.vertexCount ≤ maxWord)
    (hg : Adjacency.ofEdgeList l = .ok g) (direction : Direction) (settings : Settings) :
    Returns (solve l direction settings) (checkedSolve l direction settings) := by
  obtain ⟨run, hrun, -⟩ := (law hl direction).solve_yields settings hn hg
  exact .of_eq (checkedSolve_eq hl hn direction settings) hrun

theorem ShortestPath.returns (hl : l.Built) (hn : l.vertexCount ≤ maxWord)
    (hg : Adjacency.ofEdgeList l = .ok g) {source : VertexId}
    (hsource : source.toNat < l.vertexCount)
    (settings : Settings) : Returns (solve l source settings) (checkedSolve l source settings) := by
  obtain ⟨run, hrun, -⟩ := (law hl source).solve_yields settings hn hg
  refine .of_eq (checkedSolve_eq hl hn source settings) (a := ⟨run.report, run.graph.values⟩) ?_
  rw [solve, if_neg (Nat.not_le.2 hsource), program_eq]
  exact hrun

namespace Simulation

variable {n : Nat} {arcs : Array (PatternId × PatternId)} {wanted : Array Label}
  {pattern : Pattern}

/-- The problem of matching a built pattern in the graph of an edge list. -/
def Problem.ofBuild (hl : l.Built) (hn : l.vertexCount ≤ maxWord)
    (hpattern : Pattern.build n arcs wanted = .ok pattern) (harcs : arcs.size ≤ maxWord)
    (labels : VertexId → Label) : Problem where
  list := l
  labels
  arcs
  wanted
  pattern
  listBuilt := hl
  vertexCount_le := hn
  patternBuilt := by
    obtain ⟨rfl, -⟩ := Pattern.build_eq_ok hpattern
    exact hpattern
  size_arcs_le := harcs

theorem returns (hl : l.Built) (hn : l.vertexCount ≤ maxWord)
    (hg : Adjacency.ofEdgeList l = .ok g) (hpattern : Pattern.build n arcs wanted = .ok pattern)
    (harcs : arcs.size ≤ maxWord) (labels : VertexId → Label) (settings : Settings) :
    Returns (solve l pattern labels settings) (checkedSolve l pattern labels settings) := by
  obtain ⟨run, hrun, -⟩ :=
    solve_yields (P := .ofBuild hl hn hpattern harcs labels) settings hg
  exact .of_eq (checkedSolve_eq hpattern harcs hl hn labels settings) hrun

theorem returns_refineAgain (hl : l.Built) (hn : l.vertexCount ≤ maxWord)
    (hg : Adjacency.ofEdgeList l = .ok g) (hpattern : Pattern.build n arcs wanted = .ok pattern)
    (harcs : arcs.size ≤ maxWord) {table : Candidates} (htable : table.Built)
    (labels : VertexId → Label) (settings : Settings) :
    Returns (refineAgain l pattern table labels settings)
      (checkedRefineAgain l pattern table labels settings) := by
  obtain ⟨run, hrun, -⟩ :=
    refineAgain_yields (P := .ofBuild hl hn hpattern harcs labels) settings htable.wf hg
  exact .of_eq (checkedRefineAgain_eq hpattern harcs hl hn htable.wf labels settings) hrun

end Simulation

/-- **On an accepted graph every program returns**: no update fails, and with every access tested
the result is the same. A refinement may begin with any table, of any dimensions, with any
candidates, open or sealed. -/
theorem returns_of_accepted (hl : l.Built) (hn : l.vertexCount ≤ maxWord)
    (hg : Adjacency.ofEdgeList l = .ok g) (settings : Settings) :
    Returns (Coloring.solve l settings) (Coloring.checkedSolve l settings) ∧
      (∀ direction, Returns (Components.solve l direction settings)
        (Components.checkedSolve l direction settings)) ∧
      (∀ source : VertexId, source.toNat < l.vertexCount →
        Returns (ShortestPath.solve l source settings)
          (ShortestPath.checkedSolve l source settings)) ∧
      ∀ (n : Nat) (arcs : Array (PatternId × PatternId)) (wanted : Array Label)
        (pattern : Pattern) (labels : VertexId → Label),
        Pattern.build n arcs wanted = .ok pattern → arcs.size ≤ maxWord →
        Returns (Simulation.solve l pattern labels settings)
            (Simulation.checkedSolve l pattern labels settings) ∧
          ∀ table : Candidates, table.Built →
            Returns (Simulation.refineAgain l pattern table labels settings)
              (Simulation.checkedRefineAgain l pattern table labels settings) :=
  ⟨Coloring.returns hl hn hg settings,
    fun direction => Components.returns hl hn hg direction settings,
    fun _ hsource => ShortestPath.returns hl hn hg hsource settings,
    fun _ _ _ _ labels hpattern harcs =>
      ⟨Simulation.returns hl hn hg hpattern harcs labels settings, fun _ htable =>
        Simulation.returns_refineAgain hl hn hg hpattern harcs htable labels settings⟩⟩

/-- A table for other dimensions than those of `ShortestPath.knottedCycle` and of a pattern of two
vertices, with candidates outside of both. -/
def foreignTable : Candidates :=
  ((((Candidates.ofCapacity 9 5).add 0 0).2.add 0 4).2.add 8 3).2

theorem returns_of_accepted_knottedCycle : ∃ colored linked near matched refined,
    (Coloring.checkedSolve ShortestPath.knottedCycle {} = .ok colored ∧
      colored.values = #[2, 1, 0, 0]) ∧
    (Components.checkedSolve ShortestPath.knottedCycle .directed {} = .ok linked ∧
      linked.values = #[0, 0, 0, 3]) ∧
    (ShortestPath.checkedSolve ShortestPath.knottedCycle 1 {} = .ok near ∧
      near.values = #[3, 1, 2, unreached]) ∧
    (Simulation.checkedSolve ShortestPath.knottedCycle ⟨#[0, 1, 1], #[1], #[0, 1]⟩ (· % 2) {} =
        .ok matched ∧
      matched.table.liveSets = [(0, [0]), (1, [1]), (3, [1])]) ∧
    Simulation.checkedRefineAgain ShortestPath.knottedCycle ⟨#[0, 1, 1], #[1], #[0, 1]⟩
        foreignTable (· % 2) {} = .ok refined ∧
      refined.table.liveSets = [(0, [4]), (8, [3])] := by
  have haccepted : ∃ g, Adjacency.ofEdgeList ShortestPath.knottedCycle = .ok g := ⟨_, rfl⟩
  have hpattern : Pattern.build 2 #[(0, 1)] #[0, 1] = .ok ⟨#[0, 1, 1], #[1], #[0, 1]⟩ := rfl
  have htable : foreignTable.Built := .add _ _ (.add _ _ (.add _ _ (.ofCapacity 9 5)))
  obtain ⟨g, hg⟩ := haccepted
  obtain ⟨hcolored, hlinked, hnear, hsimulation⟩ :=
    returns_of_accepted (.ofList _) (by decide) hg {}
  obtain ⟨hmatched, hrefined⟩ := hsimulation _ _ _ _ (· % 2) hpattern (by decide)
  obtain ⟨colored, hcolored, hcolors⟩ :=
    hcolored.exists_of_any (·.values == #[2, 1, 0, 0]) (by cbv)
  obtain ⟨linked, hlinked, hlabels⟩ :=
    (hlinked .directed).exists_of_any (·.values == #[0, 0, 0, 3]) (by decide +kernel)
  obtain ⟨near, hnear, hdistances⟩ := (hnear 1 (by decide)).exists_of_any
    (·.values == #[3, 1, 2, unreached]) (by decide +kernel)
  obtain ⟨matched, hmatched, hpairs⟩ := hmatched.exists_of_any
    (·.table.liveSets == [(0, [0]), (1, [1]), (3, [1])]) (by decide +kernel)
  obtain ⟨refined, hrefined, hleft⟩ := (hrefined foreignTable htable).exists_of_any
    (·.table.liveSets == [(0, [4]), (8, [3])]) (by decide +kernel)
  rw [beq_iff_eq] at hcolors hlabels hdistances hpairs hleft
  exact ⟨colored, linked, near, matched, refined, ⟨hcolored, hcolors⟩, ⟨hlinked, hlabels⟩,
    ⟨hnear, hdistances⟩, ⟨hmatched, hpairs⟩, hrefined, hleft⟩

end VertexSweep
