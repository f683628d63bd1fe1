import VertexSweep.Proofs.Graph.EdgeSet
import VertexSweep.Proofs.Sweep.Coupling

/-!
# Runs on lists with the same edges

A program sees only edges if updates of twins come out as twins: with the same state, value and
verdict, with requests for the same vertices, and with slots that still hold the content of their
edges (`VertexProgram.SeesEdges`). Then the runs on two lists with the same edges go through twin
stages (`Stage.Twins`), whose schedules hold the same tasks, and come to the same
(`VertexProgram.SeesEdges.account_eq`).
-/

namespace VertexSweep

variable {σ V E : Type} {l l' : EdgeList}

/-- Updates of twins that come out as twins; nobody is taken off the schedule. -/
structure Update.Twins (l l' : EdgeList) (u u' : Update σ V E) : Prop where
  state : u'.state = u.state
  verdict : u'.verdict = u.verdict
  view : ∃ content, u.view.Twins l l' content u'.view
  requests : ∀ r, r ∈ u'.requests ↔ r ∈ u.requests
  keeps : ∀ first last, .remove first last ∉ u.requests

/-- The updates depend on the list of edges only through the set of its edges. -/
def VertexProgram.SeesEdges (program : VertexProgram σ V E) (l l' : EdgeList) : Prop :=
  ∀ (ctx : Context) (state : σ) {content : VertexId × VertexId → E} {view view' : View V E},
    view.Twins l l' content view' →
    (program.update ctx state view).Twins l l' (program.update ctx state view')

namespace Stage

/-- Stages of runs on two lists that differ at most in which slots the edges have. -/
structure Twins (l l' : EdgeList) (s t : Stage σ V E) : Prop where
  state : t.state = s.state
  values : t.values = s.values
  control : t.control = s.control
  visited : t.visited = s.visited
  changed : t.changed = s.changed
  tasks : s.tasks.Alike t.tasks
  slots : ∃ content, l.Carries s.slots content ∧ l'.Carries t.slots content

variable {program : VertexProgram σ V E} {settings : Settings} {s t : Stage σ V E} {v : VertexId}

namespace Twins

theorem start {state : σ} {values : Array V} {x : E} {tasks : Tasks} :
    Twins l l' { state, values, slots := Array.replicate l.edges.size x, tasks }
      { state, values, slots := Array.replicate l'.edges.size x, tasks } :=
  ⟨rfl, rfl, rfl, rfl, rfl, .refl, _, EdgeList.carries_replicate, EdgeList.carries_replicate⟩

theorem run (h : Twins l l' s t) (hook : Hook σ) : Twins l l' (s.run hook) (t.run hook) where
  state := congrArg Prod.fst (congrArg₂ hook h.control h.state)
  values := h.values
  control := congrArg₂ Control.heed h.control
    (congrArg Prod.snd (congrArg₂ hook h.control h.state))
  visited := h.visited
  changed := h.changed
  tasks := h.tasks
  slots := h.slots

theorem enter (h : Twins l l' s t) (iteration : UInt32) :
    Twins l l' (s.enter iteration) (t.enter iteration) where
  state := h.state
  values := h.values
  control := congrArg (fun c : Control => { c with iteration }) h.control
  visited := rfl
  changed := rfl
  tasks := h.tasks
  slots := h.slots

theorem summary_eq (h : Twins l l' s t) : t.summary = s.summary := by
  rw [summary, summary, h.control, h.visited, h.changed, h.tasks.pending_eq]

theorem close (h : Twins l l' s t) : Twins l l' (s.close program) (t.close program) := by
  have hrun := h.run (program.afterIteration s.summary)
  unfold Stage.close
  rw [h.summary_eq]
  exact ⟨hrun.state, hrun.values, hrun.control, hrun.visited, hrun.changed, hrun.tasks.advance,
    hrun.slots⟩

theorem outcome?_eq (h : Twins l l' s t) {round : RoundSummary} :
    t.outcome? settings round = s.outcome? settings round := by
  rw [outcome?, outcome?, h.control, h.tasks.isActive_eq]

theorem updated (h : Twins l l' s t) {u u' : Update σ V E} (hu : u.Twins l l' u')
    (activity : Activity) :
    Twins l l' (s.updated settings v u activity) (t.updated settings v u' activity) where
  state := hu.state
  values := by
    obtain ⟨content, hview⟩ := hu.view
    simp only [Stage.updated, h.values, hview.value]
  control := h.control
  visited := congrArg (· + 1) h.visited
  changed := by simp only [Stage.updated, h.changed]
  tasks := by
    simp only [Stage.updated]
    split
    · exact h.tasks.take.grantAll hu.keeps hu.requests
    · exact h.tasks.take
  slots := by
    obtain ⟨content, hview⟩ := hu.view
    exact ⟨content, hview.carries, hview.carries'⟩

variable [Inhabited V]

theorem updateOf (h : Twins l l' s t) (hsees : program.SeesEdges l l')
    (hv : v.toNat < l.vertexCount) :
    (s.updateOf program settings l.graph v).Twins l l'
      (t.updateOf program settings l'.graph v) := by
  obtain ⟨content, hcarries, hcarries'⟩ := h.slots
  unfold Stage.updateOf
  rw [h.control, h.state, h.values]
  apply hsees
  exact ⟨rfl, rfl, rfl, rfl, hv, hcarries, hcarries'⟩

/-- Twins remain twins when a vertex has its turn. -/
theorem visit (h : Twins l l' s t) (hsees : program.SeesEdges l l')
    (hv : v.toNat < l.vertexCount) :
    Agree (s.visit program settings l.graph v) (t.visit program settings l'.graph v) Aborted.Alike
      (Twins l l') := by
  have hu : (s.updateOf program settings l.graph v).Twins l l'
      (t.updateOf program settings l'.graph v) := h.updateOf hsees hv
  obtain ⟨content, hview⟩ := hu.view
  apply visit_agree
  · exact h.tasks.isDue_eq
  · exact hu.verdict
  · intro _ _
    exact h
  · intro fault _
    refine ⟨rfl, hu.state, ?_⟩
    simp only [stopped, h.values, hview.value]
  · intro activity _ _
    exact h.updated hu activity

end Twins

/-- Runs on two lists with the same edges, in step. -/
def twins [Inhabited V] (hsees : program.SeesEdges l l') (settings : Settings)
    (hn : l.vertexCount ≤ 4294967296) :
    Coupling program program settings l.graph l'.graph Aborted.Alike where
  between _ := Twins l l'
  during _ _ := Twins l l'
  begins _ h := (h.enter _).run _
  entersWindow _ h := h.run _
  leavesWindow _ h := h.run _
  visits {_ k _ _} _ hk h := by
    rw [Adjacency.vertexCount_ofEdges] at hk
    apply h.visit hsees
    rwa [UInt32.toNat_ofNat_of_lt' (Nat.lt_of_lt_of_le hk hn)]
  summary_eq h := h.summary_eq
  outcome?_eq h := h.close.outcome?_eq
  ends _ h _ := h.close

end Stage

/-- **A program that sees only edges comes to the same on lists with the same edges.** -/
theorem VertexProgram.SeesEdges.account_eq [Inhabited V] [Inhabited E]
    {program : VertexProgram σ V E} {settings : Settings} (hsees : program.SeesEdges l l')
    (hsame : l.SameEdges l') (hn : l.vertexCount ≤ 4294967296) (state : σ) :
    account (program.run settings state (.ofAdjacency l.graph)) =
      account (program.run settings state (.ofAdjacency l'.graph)) := by
  have hcount : l'.graph.vertexCount = l.graph.vertexCount := by
    rw [Adjacency.vertexCount_ofEdges, Adjacency.vertexCount_ofEdges, hsame.vertexCount]
  have hcount' : l.graph.vertexCount ≤ 4294967296 := by rwa [Adjacency.vertexCount_ofEdges]
  apply Agree.account_eq
  unfold DataGraph.ofAdjacency
  rw [hcount]
  apply (Stage.twins hsees settings hn).agree hcount' hcount
  · exact Stage.Twins.start
  · intro _ s t outcome _ h
    exact ⟨rfl, h.close.state, h.values⟩
  · intro _ s t _ h
    exact ⟨rfl, h.state, h.values⟩

end VertexSweep
