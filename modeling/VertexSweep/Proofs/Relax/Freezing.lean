import VertexSweep.Proofs.Relax.Coloring
import VertexSweep.Proofs.Relax.Pace

/-!
# Colors freeze from the highest id downwards

Colors may go up and down, but a vertex no longer changes its color when the vertices with higher
ids do not (`Coloring.Frozen`): nothing that it reads comes from elsewhere, and it is told of no
change that it did not read. So the vertices freeze one by one, and greedy coloring is ranked by the
number of vertices that are to freeze before (`Coloring.ranked`), which bounds the number of
iterations (`colors_converge`).
-/

namespace VertexSweep.Coloring

variable {l : EdgeList} {settings : Settings} {g : Adjacency} {x : Numbers}
  {view : View UInt32 UInt32} {v w : VertexId}

/-- The vertex and those above it have the least colors that they may have. -/
def Frozen (l : EdgeList) (x : Numbers) (v : VertexId) : Prop :=
  ∀ w : VertexId, w.toNat < l.vertexCount → v ≤ w → Stable l x w

/-- The vertices with higher ids come first. -/
def ranking (l : EdgeList) : Relaxation.Ranking where
  rank v := l.vertexCount - (v.toNat + 1)
  resting := Frozen l

theorem stable_of_lt (hbelow : (ranking l).RestsBelow l.graph ((ranking l).rank v) x) (hlt : v < w)
    (hw : w.toNat < l.vertexCount) : Stable l x w := by
  have hrank : (ranking l).rank w < (ranking l).rank v := by
    rw [UInt32.lt_iff_toNat_lt] at hlt
    simp only [ranking]
    omega
  have hcount : w.toNat < l.graph.vertexCount := by rwa [Adjacency.vertexCount_ofEdges]
  exact hbelow w hcount hrank w hw (UInt32.le_refl w)

theorem frozen_of_stable (hbelow : (ranking l).RestsBelow l.graph ((ranking l).rank v) x)
    (h : Stable l x v) : Frozen l x v := by
  intro w hw hle
  rcases UInt32.lt_or_eq_of_le hle with hlt | rfl
  · exact stable_of_lt hbelow hlt hw
  · exact h

/-- A turn makes its own vertex stable, and it leaves those above as they are. -/
theorem stable_recolor (hl : l.Built) (hn : l.vertexCount ≤ maxWord) (hview : view.Shows l.graph x)
    (hsound : Sound l x) (hle : view.id ≤ w) (h : w = view.id ∨ Stable l x w) :
    Stable l (x.after view.id (recolor view).view) w := by
  obtain ⟨hstable, heq⟩ | ⟨c, -, hleast, heq⟩ := recolor_cases hl hn hview hsound <;> rw [heq]
  · rw [Numbers.after_eq hview]
    rcases h with rfl | h
    · exact hstable
    · exact h
  · by_contra hunstable
    rcases unsettled_publish hview hleast hunstable with ⟨hne, hbefore⟩ | ⟨hlt, -⟩
    · exact h.elim hne hbefore
    · exact UInt32.not_lt.2 hle hlt

/-- The turn of a vertex that is frozen leaves everything as it is. -/
theorem recolor_eq_of_stable (hl : l.Built) (hn : l.vertexCount ≤ maxWord)
    (hview : view.Shows l.graph x) (hsound : Sound l x) (h : Stable l x view.id) :
    recolor view = { state := (), view, verdict := .ok .quiet } := by
  obtain ⟨-, heq⟩ | ⟨_, hunstable, -⟩ := recolor_cases hl hn hview hsound
  · exact heq
  · exact absurd h hunstable

/-- A turn of any vertex leaves those that are frozen frozen. -/
theorem Frozen.recolor (h : Frozen l x v) (hl : l.Built) (hn : l.vertexCount ≤ maxWord)
    (hview : view.Shows l.graph x) (hsound : Sound l x) :
    Frozen l (x.after view.id (recolor view).view) v := by
  rcases UInt32.le_total v view.id with hle | hle
  · rw [recolor_eq_of_stable hl hn hview hsound (h view.id hview.id_lt hle),
      Numbers.after_eq hview]
    exact h
  · exact fun w hw hvw =>
      stable_recolor hl hn hview hsound (UInt32.le_trans hle hvw) (.inr (h w hw hvw))

/-- **Greedy coloring is ranked** from the highest id downwards. -/
def ranked (hl : l.Built) (hn : l.vertexCount ≤ maxWord) : (law hl hn).Ranked where
  toRanking := ranking l
  rank_lt v hv := by
    rw [Adjacency.vertexCount_ofEdges] at hv ⊢
    simp only [ranking]
    omega
  resting_of_stable _ _ hbelow h := frozen_of_stable hbelow h
  resting_after {x view v} hview hsound _ hbelow h := by
    rcases h with rfl | h
    · intro w hw hle
      refine stable_recolor hl hn hview hsound hle ?_
      rcases UInt32.lt_or_eq_of_le hle with hlt | heq
      · exact .inr (stable_of_lt hbelow hlt hw)
      · exact .inl heq.symm
    · exact h.recolor hl hn hview hsound
  quiet {x view} hview hsound hall := by
    have hfrozen : Frozen l x view.id := hall view.id hview.lt_vertexCount
    have hstable := hfrozen view.id hview.id_lt (UInt32.le_refl _)
    rw [recolor_eq_of_stable hl hn hview hsound hstable]

/-- **Colorings converge** within two iterations more than there are vertices, in either mode and
whatever the window size. -/
theorem colors_converge (hl : l.Built) (hg : Adjacency.ofEdgeList l = .ok g)
    (hlimit : l.vertexCount + 2 ≤ settings.maxIterations.toNat) :
    ∃ found, solve l settings = .ok found ∧ found.report.outcome = .converged ∧
      found.report.iterations.toNat = found.report.rounds.size ∧
      found.report.rounds.size ≤ l.vertexCount + 2 := by
  rw [solve, program_eq]
  exact (ranked hl (Relaxation.le_maxWord_of_ceiling hlimit)).exists_converged hg hlimit

/-- A cycle in which every change at a higher id is passed on to the lower ones. -/
def ascendingCycle : EdgeList := .ofList [(0, 1), (1, 2), (2, 3), (3, 0)]

theorem colors_converge_ascendingCycle : ∃ found,
    solve ascendingCycle { maxIterations := 6, selective := true, intervalSize := 3 } = .ok found ∧
      found.report.outcome = .converged ∧ found.values = #[1, 0, 1, 0] ∧
      found.report.iterations.toNat = found.report.rounds.size ∧
      found.report.rounds.size ≤ ascendingCycle.vertexCount + 2 := by
  have hrun : (solve ascendingCycle
      { maxIterations := 6, selective := true, intervalSize := 3 }).toOption.any
        (·.values == #[1, 0, 1, 0]) = true := by
    cbv
  have hl : ascendingCycle.Built := .ofList _
  have hg : Adjacency.ofEdgeList ascendingCycle = .ok ascendingCycle.graph := rfl
  have hlimit : ascendingCycle.vertexCount + 2 ≤
      ({ maxIterations := 6, selective := true, intervalSize := 3 } :
        Settings).maxIterations.toNat := by decide
  obtain ⟨found, h, hconverged, hiterations, hrounds⟩ := colors_converge hl hg hlimit
  rw [h] at hrun
  exact ⟨found, h, hconverged, beq_iff_eq.1 hrun, hiterations, hrounds⟩

end VertexSweep.Coloring
