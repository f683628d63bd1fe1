import VertexSweep.Proofs.Match.Refining
import VertexSweep.Proofs.Match.Seeding
import VertexSweep.Proofs.Sweep.Settling

/-!
# The phases of a simulation

A run labels the vertices in iteration 0, seeds them in iteration 1 if the table is still open, and
refines from then on. Each phase has an invariant of its own (`Labelling`, `Seeding`, `Refining`)
that says what the table holds when the vertices below `k` have had their turn; a turn keeps it
(`Refining.visit`), and the end of an iteration hands over to the next one (`Refining.next`). The
invariant of refinement is `Refined`, by which nothing is lost that a relation covering its own
pairs contains, together with `Stage.Settling`, by which every vertex with an uncovered candidate
has a turn to come.
-/

namespace VertexSweep.Simulation

variable {P : Problem} {settings : Settings} {t : Candidates} {k i : Nat} {m m' : Matching}
  {s : Stage Matching Label Label} {u v : VertexId} {p : PatternId}

/-! ## What refinement keeps -/

/-- `m` comes from seeding `t`, where no candidate was dropped that belongs to a relation covering
its own pairs. -/
structure Refined (P : Problem) (t : Candidates) (m : Matching) : Prop where
  wf : m.table.WF
  le : ∀ {u p}, m.table.relation u p → Seeded P t u p
  outside : ∀ {u p}, P.vertexCount ≤ u.toNat → t.relation u p → m.table.relation u p
  keeps : ∀ {S : VertexId → PatternId → Prop}, (∀ u p, S u p → P.Covered S u p) →
    (∀ u p, S u p → Seeded P t u p) → ∀ u p, S u p → m.table.relation u p
  pruned_eq_zero_iff : m.pruned = 0 ↔ ∀ u p, Seeded P t u p → m.table.relation u p

theorem Refined.of_seeded (hwf : m.table.WF) (hpruned : m.pruned = 0)
    (hrelation : ∀ {u p}, m.table.relation u p ↔ Seeded P t u p) : Refined P t m where
  wf := hwf
  le := hrelation.1
  outside _ hp := hrelation.2 (.inl hp)
  keeps _ hle u p hp := hrelation.2 (hle u p hp)
  pruned_eq_zero_iff := ⟨fun _ _ _ => hrelation.2, fun _ => hpruned⟩

theorem Refined.prunes (h : Refined P t m) (hprunes : Prunes P v m m')
    (hv : v.toNat < P.vertexCount) : Refined P t m' where
  wf := hprunes.wf
  le hp := h.le (hprunes.le hp)
  outside {u p} hu hp := by
    refine hprunes.others ?_ (h.outside hu hp)
    rintro rfl
    omega
  keeps hS hle := hprunes.keeps hS (h.keeps hS hle)
  pruned_eq_zero_iff := by
    have hpruned_le := hprunes.pruned_le
    constructor
    · intro hzero u p hp
      have hsame := hprunes.pruned_eq_iff.1 (by omega)
      exact hsame u p (h.pruned_eq_zero_iff.1 (by omega) u p hp)
    · intro hall
      have hsame := hprunes.pruned_eq_iff.2 fun u p hp => hall u p (h.le hp)
      rw [hsame]
      exact h.pruned_eq_zero_iff.2 fun u p hp => hprunes.le (hall u p hp)

/-- What refinement keeps is a property of the relation and of the count. -/
theorem Refined.congr (h : Refined P t m) (hwf : m'.table.WF)
    (hrelation : m'.table.relation = m.table.relation) (hpruned : m'.pruned = m.pruned) :
    Refined P t m' := by
  obtain ⟨-, hle, houtside, hkeeps, hzero⟩ := h
  rw [← hrelation] at hle houtside hkeeps hzero
  rw [← hpruned] at hzero
  exact ⟨hwf, hle, houtside, hkeeps, hzero⟩

/-! ## The invariants of the phases -/

/-- The first iteration that refines in a run from `t`. -/
def firstRefining (t : Candidates) : Nat := if t.isSealed then 1 else 2

theorem firstRefining_of_isSealed (h : t.isSealed = true) : firstRefining t = 1 := by
  simp [firstRefining, h]

theorem firstRefining_of_isOpen (h : t.isSealed = false) : firstRefining t = 2 := by
  simp [firstRefining, h]

theorem firstRefining_pos : 0 < firstRefining t := by
  unfold firstRefining
  split <;> omega

theorem firstRefining_le : firstRefining t ≤ 2 := by
  unfold firstRefining
  split <;> omega

/-- All candidates of `u` are covered. -/
def Stable (P : Problem) (s : Stage Matching Label Label) (u : VertexId) : Prop :=
  ∀ p, s.state.table.relation u p → P.Covered s.state.table.relation u p

/-- While vertices are labelled the table stays as it was. -/
structure Labelling (P : Problem) (settings : Settings) (t : Candidates) (k : Nat)
    (s : Stage Matching Label Label) : Prop where
  unasked : s.control.last = none
  labelled : P.LabelledBelow k s.values s.slots
  queued : s.Queued settings P.graph k
  table : s.state.table = t
  pruned : s.state.pruned = 0

/-- While vertices are seeded the table is open and gets the pairs of one vertex after the other. -/
structure Seeding (P : Problem) (settings : Settings) (t : Candidates) (k : Nat)
    (s : Stage Matching Label Label) : Prop where
  unasked : s.control.last = none
  labelled : P.LabelledBelow P.vertexCount s.values s.slots
  queued : s.Queued settings P.graph k
  wf : s.state.table.WF
  wasOpen : t.isSealed = false
  isOpen : s.state.table.isSealed = false
  capacity : s.state.table.capacity = P.vertexCount
  width : s.state.table.width = P.wanted.size
  relation_iff : ∀ {u p}, s.state.table.relation u p ↔ SeededBelow P t k u p
  pruned : s.state.pruned = 0
  changed_eq_zero_iff : s.changed = 0 ↔ IdleBelow P t k

/-- While vertices are refined each one that is not stable has a turn to come. -/
structure Refining (P : Problem) (settings : Settings) (t : Candidates) (i k : Nat)
    (s : Stage Matching Label Label) : Prop where
  started : firstRefining t ≤ i
  unasked : s.control.last = none
  labelled : P.LabelledBelow P.vertexCount s.values s.slots
  settling : s.Settling settings P.graph (Stable P) k
  refined : Refined P t s.state
  isSealed : s.state.table.isSealed = true
  pruned_of_changed : s.changed ≠ 0 → s.state.pruned ≠ 0
  pruned_of_later : firstRefining t < i → s.state.pruned ≠ 0
  busy : ¬ Idle P t

/-! ## One turn -/

/-- The vertex `v` as it stands, opened for an update. -/
abbrev viewOf (P : Problem) (s : Stage Matching Label Label) (v : VertexId) : View Label Label :=
  ⟨v, s.values.getD v.toNat default, P.graph, s.slots⟩

/-- The program of a problem. -/
abbrev Problem.program (P : Problem) : VertexProgram Matching Label Label :=
  Simulation.program P.pattern P.labels

variable {fails : Aborted Matching Label Label → Prop}

private theorem vertexCount_le_bound (hs : s.InIteration P.graph i) :
    P.graph.vertexCount ≤ s.tasks.bound := by
  have hle : P.vertexCount ≤ maxWord := P.vertexCount_le
  rw [hs.bound, Problem.vertexCount_graph]
  omega

theorem Labelling.visit (h : Labelling P settings t v.toNat s) (hs : s.InIteration P.graph 0)
    (hv : v.toNat < P.vertexCount) :
    Yields (s.visit P.program settings P.graph v) fails (Labelling P settings t (v.toNat + 1)) := by
  have hupdate : s.updateOf P.program settings P.graph v =
      assign (P.labels v) s.state (viewOf P s v) := by
    simp only [Stage.updateOf, Simulation.program, hs.iteration]
    rfl
  have hvertex : v.toNat < P.graph.vertexCount := by rwa [Problem.vertexCount_graph]
  refine Stage.visit_yields (fun hsel hdue => ?_) (fun fault hfault => ?_) fun activity _ hok => ?_
  · rw [h.queued.isDue hsel hvertex] at hdue
    cases hdue
  · rw [hupdate] at hfault
    cases hfault
  · rw [hupdate]
    refine ⟨h.unasked, ?_, ?_, h.table, h.pruned⟩
    · have hvalue : (assign (P.labels v) s.state (viewOf P s v)).view.value = P.labels v := by
        simp only [assign, View.writeAll_eq]
        rfl
      simp only [Stage.updated, hvalue]
      exact h.labelled.succ ((viewOf P s v).setValue (P.labels v)) rfl rfl rfl
    · refine h.queued.updated (vertexCount_le_bound hs) (fun first last hmem => ?_)
        (?_ : Request.add v false ∈ _)
      · simp [assign] at hmem
      · simp [assign]

theorem Seeding.visit (h : Seeding P settings t v.toNat s) (ht : t.WF)
    (hs : s.InIteration P.graph 1) (hv : v.toNat < P.vertexCount) :
    Yields (s.visit P.program settings P.graph v) fails (Seeding P settings t (v.toNat + 1)) := by
  have hupdate : s.updateOf P.program settings P.graph v =
      seed P.pattern s.state (viewOf P s v) := by
    simp only [Stage.updateOf, Simulation.program, hs.iteration, h.isOpen]
    rfl
  have hvertex : v.toNat < P.graph.vertexCount := by rwa [Problem.vertexCount_graph]
  have hvalue : s.values.getD v.toNat default = P.labels v := by
    rw [Array.getD_eq_getD_getElem?, h.labelled.value v hv hv, Option.getD_some]
  -- Before its turn a vertex has the candidates that it had from the start.
  have hlive : s.state.table.isLive v = t.isLive v := by
    rw [Bool.eq_iff_iff, Candidates.isLive_iff h.wf, Candidates.isLive_iff ht]
    refine exists_congr fun p => h.relation_iff.trans ?_
    simp [SeededBelow]
  obtain ⟨a, m', hseed, hwf, hopen, hcapacity, hwidth, hpruned, hrelation, hquiet⟩ :=
    seed_yields (viewOf P s v) h.wf h.isOpen (h.capacity ▸ hv) h.width hvalue
  simp only [hlive] at hrelation hquiet
  refine Stage.visit_yields (fun hsel hdue => ?_) (fun fault hfault => ?_) fun activity _ hok => ?_
  · rw [h.queued.isDue hsel hvertex] at hdue
    cases hdue
  · rw [hupdate, hseed] at hfault
    cases hfault
  · rw [hupdate, hseed] at hok ⊢
    cases hok
    refine ⟨h.unasked, ?_, ?_, hwf, h.wasOpen, hopen, hcapacity.trans h.capacity,
      hwidth.trans h.width, fun {u p} => ?_, hpruned.trans h.pruned, ?_⟩
    · simp only [Stage.updated, setIfInBounds_getD]
      exact h.labelled
    · refine h.queued.updated (vertexCount_le_bound hs) (fun first last hmem => ?_)
        (?_ : Request.add v false ∈ _)
      · simp at hmem
      · simp
    · simp only [Stage.updated]
      rw [hrelation, h.relation_iff, seededBelow_succ]
      simp [h.wasOpen]
    · rw [idleBelow_succ, ← h.changed_eq_zero_iff, ← hquiet]
      cases a <;> simp [Stage.updated, Activity.isChanged]

/-- After the refinement of `v` a vertex has an uncovered candidate only if it is another one that
had one before, or there was a change and it has an edge to `v`. -/
private theorem unsettled {a : Activity} {w : VertexId} (hprunes : Prunes P v m m')
    (hstay : ∀ p, m'.table.relation v p → P.Covered m.table.relation v p)
    (hactivity : m' = m ∨ a = .changed)
    (hp : m'.table.relation w p ∧ ¬ P.Covered m'.table.relation w p) :
    (w ≠ v ∧ m.table.relation w p ∧ ¬ P.Covered m.table.relation w p) ∨
      (a = .changed ∧ (w, v) ∈ P.list.edges) := by
  by_cases hedge : a = .changed ∧ (w, v) ∈ P.list.edges
  · exact .inr hedge
  have hsame : P.Covered m.table.relation w p → P.Covered m'.table.relation w p := by
    rcases hactivity with rfl | hchanged
    · exact id
    · refine fun h => h.congr fun x q hx hq => hprunes.others ?_ hq
      rintro rfl
      exact hedge ⟨hchanged, hx⟩
  refine .inl ⟨?_, hprunes.le hp.1, fun h => hp.2 (hsame h)⟩
  rintro rfl
  exact hp.2 (hsame (hstay p hp.1))

/-- A turn is a refinement. -/
theorem Refining.updateOf_eq (h : Refining P settings t i k s) (hs : s.InIteration P.graph i)
    (hi : i < 4294967296) :
    s.updateOf P.program settings P.graph v = refine P.pattern s.state (viewOf P s v) := by
  have hlater : s.control.iteration ≠ 0 := by
    intro hzero
    have hword := congrArg UInt32.toNat (hs.iteration.symm.trans hzero)
    rw [UInt32.toNat_ofNat_of_lt' hi] at hword
    exact absurd hword (Nat.ne_of_gt (Nat.lt_of_lt_of_le firstRefining_pos h.started))
  simp only [Stage.updateOf, Simulation.program, hlater, h.isSealed]
  rfl

theorem Refining.visit (h : Refining P settings t i v.toNat s) (hs : s.InIteration P.graph i)
    (hi : i < 4294967296) (hv : v.toNat < P.vertexCount) :
    Yields (s.visit P.program settings P.graph v) fails
      (Refining P settings t i (v.toNat + 1)) := by
  have hupdate := h.updateOf_eq (v := v) hs hi
  obtain ⟨a, m', requests, hrefine, hprunes, hstay, hkeep, hactivity⟩ :=
    refine_yields (m := s.state) (viewOf P s v) h.labelled rfl h.refined.wf
  have hpruned_le := hprunes.pruned_le
  refine Stage.visit_yields (fun hsel hdue => ?_) (fun fault hfault => ?_) fun activity _ hok => ?_
  · exact ⟨h.started, h.unasked, h.labelled, h.settling.skip hsel hdue, h.refined, h.isSealed,
      h.pruned_of_changed, h.pruned_of_later, h.busy⟩
  · rw [hupdate, hrefine] at hfault
    cases hfault
  · rw [hupdate, hrefine] at hok ⊢
    cases hok
    refine ⟨h.started, h.unasked, ?_, ?_, h.refined.prunes hprunes hv,
      hprunes.isSealed.trans h.isSealed, ?_, fun hi => ?_, h.busy⟩
    · simp only [Stage.updated, setIfInBounds_getD]
      exact h.labelled
    · refine h.settling.updated (vertexCount_le_bound hs) hkeep fun w hw hunstable => ?_
      obtain ⟨p, hp⟩ := Classical.not_forall.1 hunstable
      rcases unsettled (a := a) hprunes hstay (hactivity.imp And.right And.left)
        (Classical.not_imp.1 hp) with ⟨hne, hbefore⟩ | ⟨hchanged, hedge⟩
      · exact .inl ⟨hne, fun hstable => hbefore.2 (hstable p hbefore.1)⟩
      · obtain ⟨-, -, hrequests⟩ := hactivity.resolve_left fun hquiet => by
          rw [hchanged] at hquiet
          cases hquiet.1
        obtain ⟨slot, hslot⟩ := Array.getElem?_of_mem hedge
        have hlink : (⟨slot, w⟩ : Link) ∈ (viewOf P s v).links :=
          Array.mem_append.2 (.inl (Adjacency.mem_inOf_ofEdges.2 ⟨hv, hslot⟩))
        exact .inr ⟨hchanged, true, hrequests _ hlink⟩
    · rcases hactivity with ⟨rfl, rfl⟩ | ⟨rfl, hpruned, -⟩
      · exact h.pruned_of_changed
      · intro _
        show m'.pruned ≠ 0
        omega
    · have hbefore := h.pruned_of_later hi
      show m'.pruned ≠ 0
      omega

/-- A turn adds no pair. -/
theorem Refining.shrinks (h : Refining P settings t i v.toNat s) (hs : s.InIteration P.graph i)
    (hi : i < 4294967296) :
    Yields (s.visit P.program settings P.graph v) fails fun s' =>
      ∀ u p, s'.state.table.relation u p → s.state.table.relation u p := by
  have hupdate := h.updateOf_eq (v := v) hs hi
  obtain ⟨a, m', requests, hrefine, hprunes, -⟩ :=
    refine_yields (m := s.state) (viewOf P s v) h.labelled rfl h.refined.wf
  refine Stage.visit_yields (fun _ _ _ _ hp => hp) (fun fault hfault => ?_) fun activity _ hok => ?_
  · rw [hupdate, hrefine] at hfault
    cases hfault
  · rw [hupdate, hrefine]
    exact fun u p => hprunes.le

/-! ## From one iteration to the next -/

/-- The stage with which iteration `i` begins. -/
abbrev begun (P : Problem) (i : Nat) (s : Stage Matching Label Label) :
    Stage Matching Label Label :=
  (s.enter (UInt32.ofNat i)).run P.program.beforeIteration

/-- The table is sealed before iteration 2 at the latest. -/
theorem state_enter {pattern : Pattern} {labels : VertexId → Label} (hi : i < 4294967296) :
    ((s.enter (UInt32.ofNat i)).run (program pattern labels).beforeIteration).state =
      if 2 ≤ i then { s.state with table := s.state.table.sealed } else s.state := by
  have hword : refineFrom ≤ UInt32.ofNat i ↔ 2 ≤ i := by
    rw [UInt32.le_iff_toNat_le, UInt32.toNat_ofNat_of_lt' hi]
    rfl
  show (if refineFrom ≤ UInt32.ofNat i then _ else s.state) = _
  simp only [hword]

theorem state_begun (hi : i < 4294967296) : (begun P i s).state =
    if 2 ≤ i then { s.state with table := s.state.table.sealed } else s.state := state_enter hi

theorem relation_begun : (begun P i s).state.table.relation = s.state.table.relation := by
  show Candidates.relation (if refineFrom ≤ UInt32.ofNat i then _ else s.state : Matching).table = _
  split <;> rfl

theorem pruned_begun : (begun P i s).state.pruned = s.state.pruned := by
  show (if refineFrom ≤ UInt32.ofNat i then _ else s.state : Matching).pruned = _
  split <;> rfl

theorem wf_begun : (begun P i s).state.table.WF ↔ s.state.table.WF := by
  show (if refineFrom ≤ UInt32.ofNat i then _ else s.state : Matching).table.WF ↔ _
  split
  · exact Candidates.wf_sealed
  · exact Iff.rfl

/-- An iteration that begins with all unstable vertices due begins to refine. -/
theorem Refining.begin (hunasked : s.control.last = none)
    (hlabelled : P.LabelledBelow P.vertexCount s.values s.slots)
    (hready : s.Ready settings P.graph (Stable P)) (hrefined : Refined P t s.state)
    (hsealed : s.state.table.isSealed = true ∨ 2 ≤ i) (hstarted : firstRefining t ≤ i)
    (hlater : firstRefining t < i → s.state.pruned ≠ 0) (hbusy : ¬ Idle P t)
    (hi : i < 4294967296) : Refining P settings t i 0 (begun P i s) := by
  refine ⟨hstarted, hunasked, hlabelled, hready.enter fun v hstable => ?_,
    hrefined.congr (wf_begun.2 hrefined.wf) relation_begun pruned_begun, ?_,
    fun hchanged => absurd rfl hchanged, fun h => ?_, hbusy⟩
  · show Stable P (begun P i s) v
    unfold Stable
    rw [relation_begun]
    exact hstable
  · rw [state_begun hi]
    split
    · rfl
    · exact hsealed.resolve_right ‹_›
  · rw [pruned_begun]
    exact hlater h

/-- After labelling a sealed table is refined, and an open one is seeded. -/
theorem Labelling.next (h : Labelling P settings t P.vertexCount s) (ht : t.WF)
    (hshape : t.isSealed = false → t.capacity = P.vertexCount ∧ t.width = P.wanted.size) :
    (t.isSealed = true ∧ Refining P settings t 1 0 (begun P 1 (s.close P.program))) ∨
      (t.isSealed = false ∧ Seeding P settings t 0 (begun P 1 (s.close P.program))) := by
  have hqueued : (s.close P.program).Queued settings P.graph 0 :=
    Stage.Queued.close (by simpa using h.queued)
  cases hsealed : t.isSealed with
  | true =>
    refine .inl ⟨rfl, Refining.begin h.unasked h.labelled hqueued.ready ?_ (.inl ?_) ?_ ?_ ?_
      (by decide)⟩
    · refine .of_seeded ?_ h.pruned fun {u p} => ?_
      · exact h.table ▸ ht
      · exact h.table ▸ (seeded_of_isSealed hsealed).symm
    · exact h.table ▸ hsealed
    · exact Nat.le_of_eq (firstRefining_of_isSealed hsealed)
    · rw [firstRefining_of_isSealed hsealed]
      exact fun hlt => absurd hlt (Nat.lt_irrefl 1)
    · exact not_idle_of_isSealed hsealed
  | false =>
    obtain ⟨hcapacity, hwidth⟩ := hshape hsealed
    have htable : (begun P 1 (s.close P.program)).state.table = t := h.table
    refine .inr ⟨rfl, h.unasked, h.labelled, hqueued.enter, htable ▸ ht, hsealed, htable ▸ hsealed,
      htable ▸ hcapacity, htable ▸ hwidth, fun {u p} => htable ▸ seededBelow_zero.symm, h.pruned,
      fun _ => ⟨hsealed, fun u hu => absurd hu (Nat.not_lt_zero _)⟩, fun _ => rfl⟩

/-- After seeding the table is sealed and refined. -/
theorem Seeding.next (h : Seeding P settings t P.vertexCount s) (hchanged : s.changed ≠ 0) :
    Refining P settings t 2 0 (begun P 2 (s.close P.program)) := by
  have hqueued : (s.close P.program).Queued settings P.graph 0 :=
    Stage.Queued.close (by simpa using h.queued)
  refine Refining.begin h.unasked h.labelled hqueued.ready ?_ (.inr (Nat.le_refl 2)) ?_ ?_ ?_
    (by decide)
  · exact .of_seeded h.wf h.pruned h.relation_iff
  · exact Nat.le_of_eq (firstRefining_of_isOpen h.wasOpen)
  · rw [firstRefining_of_isOpen h.wasOpen]
    exact fun hlt => absurd hlt (Nat.lt_irrefl 2)
  · exact fun hidle => hchanged (h.changed_eq_zero_iff.2 hidle)

theorem Refining.next (h : Refining P settings t i P.vertexCount s) (hchanged : s.changed ≠ 0)
    (hi : i + 1 < 4294967296) :
    Refining P settings t (i + 1) 0 (begun P (i + 1) (s.close P.program)) := by
  refine Refining.begin h.unasked h.labelled ?_ ?_ (.inl h.isSealed) (Nat.le_succ_of_le h.started)
    (fun _ => h.pruned_of_changed hchanged) h.busy hi
  · have hsettling := h.settling
    rw [← Problem.vertexCount_graph] at hsettling
    exact hsettling.close fun v hstable => hstable
  · exact h.refined.congr h.refined.wf rfl rfl

end VertexSweep.Simulation
