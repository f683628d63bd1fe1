import VertexSweep.Proofs.Sweep.Invariant

/-!
# Settling: no unstable vertex is forgotten

A run may stop as soon as nothing changes. That its result is a fixpoint is an invariant of the
schedule: every vertex that is not stable, in whatever sense a program gives to the word, has a
turn to come (`Settling`). It holds in both activation modes, because an update that may unsettle
a vertex reports a change and requests that vertex (`Settling.updated`). When a run converges no
turn is to come, so all vertices are stable (`Settling.stable_of_converged`).

`Queued` is for iterations in which everyone has a turn: nobody is skipped (`Queued.isDue`), and all
will have one again (`Queued.close`).
-/

namespace VertexSweep.Stage

variable {σ V E : Type} {program : VertexProgram σ V E} {settings : Settings} {g : Adjacency}
  {stable : Stage σ V E → VertexId → Prop} {s : Stage σ V E} {v : VertexId} {k : Nat}

/-- `v` has a turn to come when the vertices below `k` have had theirs: in the current sweep, or in
the next one, which there will be because something was changed. -/
def Awaits (settings : Settings) (k : Nat) (s : Stage σ V E) (v : VertexId) : Prop :=
  (k ≤ v.toNat ∧ (settings.selective = true → s.tasks.isDue v = true)) ∨
    (s.changed ≠ 0 ∧ (settings.selective = true → s.tasks.isRequested v = true))

/-- Every vertex is stable or has a turn to come. -/
def Settling (settings : Settings) (g : Adjacency) (stable : Stage σ V E → VertexId → Prop)
    (k : Nat) (s : Stage σ V E) : Prop :=
  ∀ v : VertexId, v.toNat < g.vertexCount → stable s v ∨ s.Awaits settings k v

/-- Before an iteration: every vertex is stable or due. -/
def Ready (settings : Settings) (g : Adjacency) (stable : Stage σ V E → VertexId → Prop)
    (s : Stage σ V E) : Prop :=
  ∀ v : VertexId, v.toNat < g.vertexCount →
    stable s v ∨ (settings.selective = true → s.tasks.isDue v = true)

/-- A turn that is skipped was not needed. -/
theorem Settling.skip (h : s.Settling settings g stable v.toNat) (hsel : settings.selective = true)
    (hdue : s.tasks.isDue v = false) : s.Settling settings g stable (v.toNat + 1) := by
  intro w hw
  rcases h w hw with hstable | ⟨hle, hturn⟩ | hnext
  · exact .inl hstable
  · refine .inr (.inl ⟨?_, hturn⟩)
    have hne : w.toNat ≠ v.toNat := by
      intro heq
      rw [UInt32.toNat_inj.1 heq, hdue] at hturn
      exact absurd (hturn hsel) Bool.false_ne_true
    omega
  · exact .inr (.inr hnext)

/-- A turn to come survives the update of another vertex. -/
theorem Awaits.updated {w : VertexId} {u : Update σ V E} {activity : Activity}
    (h : s.Awaits settings v.toNat w) (hne : w ≠ v)
    (hkeep : ∀ first last, .remove first last ∉ u.requests) :
    (s.updated settings v u activity).Awaits settings (v.toNat + 1) w := by
  rcases h with ⟨hle, hturn⟩ | ⟨hchanged, hturn⟩
  · refine .inl ⟨?_, fun hsel => ?_⟩
    · have hnat : w.toNat ≠ v.toNat := fun heq => hne (UInt32.toNat_inj.1 heq)
      omega
    · simp only [Stage.updated, if_pos hsel]
      exact Tasks.isDue_grantAll hkeep ((Tasks.isDue_take hne).trans (hturn hsel))
  · refine .inr ⟨?_, fun hsel => ?_⟩
    · simp only [Stage.updated]
      split <;> omega
    · simp only [Stage.updated, if_pos hsel]
      exact Tasks.isRequested_grantAll (Tasks.isRequested_take.trans (hturn hsel))

/-- A change comes with a turn in the next sweep for whatever it requests. -/
theorem Awaits.of_request {w : VertexId} {u : Update σ V E} {urgent : Bool}
    (hmem : .add w urgent ∈ u.requests) (hw : w.toNat < s.tasks.bound) :
    (s.updated settings v u .changed).Awaits settings k w := by
  refine .inr ⟨Nat.succ_ne_zero s.changed, fun hsel => ?_⟩
  simp only [Stage.updated, if_pos hsel]
  exact Tasks.isRequested_of_mem hmem (by rwa [Tasks.bound_take])

/-- **One update keeps a stage settling** if each vertex that is unstable afterwards was unstable
before and is not the one that was updated, or is requested along with a change. -/
theorem Settling.updated {u : Update σ V E} {activity : Activity}
    (h : s.Settling settings g stable v.toNat) (hbound : g.vertexCount ≤ s.tasks.bound)
    (hkeep : ∀ first last, .remove first last ∉ u.requests)
    (unsettled : ∀ w : VertexId, w.toNat < g.vertexCount →
      ¬ stable (s.updated settings v u activity) w →
      (w ≠ v ∧ ¬ stable s w) ∨
        (activity = .changed ∧ ∃ urgent, .add w urgent ∈ u.requests)) :
    (s.updated settings v u activity).Settling settings g stable (v.toNat + 1) := by
  intro w hw
  by_cases hstable : stable (s.updated settings v u activity) w
  · exact .inl hstable
  refine .inr ?_
  rcases unsettled w hw hstable with ⟨hne, hbefore⟩ | ⟨rfl, urgent, hmem⟩
  · exact ((h w hw).resolve_left hbefore).updated hne hkeep
  · exact Awaits.of_request hmem (by omega)

/-- After the last turn of a sweep only the next one can be awaited. -/
theorem Awaits.next (h : s.Awaits settings g.vertexCount v) (hv : v.toNat < g.vertexCount) :
    s.changed ≠ 0 ∧ (settings.selective = true → s.tasks.isRequested v = true) := by
  rcases h with ⟨hle, -⟩ | hnext
  · omega
  · exact hnext

/-! ## How a run ends -/

/-- A round counts as converged if it is not the first one and nothing was changed. -/
theorem converged_summary :
    s.summary.converged = true ↔ 0 < s.control.iteration ∧ s.changed = 0 := by
  simp [summary, RoundSummary.ofCounts]

/-- A run that was not asked to end converges, because nothing was changed or no task is left. -/
theorem outcome?_eq_some {round : RoundSummary} {outcome : Outcome}
    (hlast : s.control.last = none) (h : s.outcome? settings round = some outcome) :
    outcome = .converged ∧ (round.converged = true ∨
      (settings.selective = true ∧ s.tasks.isActive = false)) := by
  have hgo : s.control.endsAfter round.iteration = false := by simp [Control.endsAfter, hlast]
  unfold outcome? at h
  rw [hgo] at h
  split at h
  · rename_i hquiet
    cases h
    exact ⟨rfl, .inl hquiet⟩
  simp only [Bool.false_eq_true, if_false] at h
  split at h
  · rename_i hidle
    cases h
    exact ⟨rfl, .inr (by simpa using hidle)⟩
  · cases h

/-- A run goes on only after a round that counts as unconverged. -/
theorem not_converged_of_outcome? {round : RoundSummary} (h : s.outcome? settings round = none) :
    round.converged = false := by
  unfold outcome? at h
  split at h
  · cases h
  · rename_i hbusy
    simpa using hbusy

/-- A run goes on after a later iteration only if something was changed. -/
theorem InIteration.changed_ne_zero {i : Nat} (hs : s.InIteration g i) (hpos : 0 < i)
    (hi : i < 4294967296) (hgoes : (s.close program).outcome? settings s.summary = none) :
    s.changed ≠ 0 := by
  intro hzero
  have hquiet : s.summary.converged = true := by
    refine converged_summary.2 ⟨?_, hzero⟩
    rw [UInt32.lt_iff_toNat_lt, hs.toNat_iteration hi]
    exact hpos
  rw [not_converged_of_outcome? hgoes] at hquiet
  cases hquiet

/-- **When a run converges every vertex is stable.** -/
theorem Settling.stable_of_converged (h : s.Settling settings g stable g.vertexCount)
    (hend : (s.close program).outcome? settings s.summary = some .converged)
    (hv : v.toNat < g.vertexCount) : stable s v := by
  refine (h v hv).resolve_right fun hawaits => ?_
  obtain ⟨hchanged, hnext⟩ := hawaits.next hv
  have hbusy : s.summary.converged ≠ true := fun hquiet => hchanged (converged_summary.1 hquiet).2
  unfold outcome? at hend
  rw [if_neg hbusy] at hend
  split at hend
  · cases hend
  split at hend
  · rename_i hidle
    obtain ⟨hsel, hactive⟩ :
        settings.selective = true ∧ (s.close program).tasks.isActive = false := by
      simpa using hidle
    have hdue : s.tasks.isRequested v = false := Tasks.isDue_eq_false hactive
    rw [hnext hsel] at hdue
    cases hdue
  · cases hend

/-- The end of an iteration makes due what was requested. -/
theorem Settling.close (h : s.Settling settings g stable g.vertexCount)
    (hkeep : ∀ v, stable s v → stable (s.close program) v) :
    (s.close program).Ready settings g stable := by
  intro v hv
  rcases h v hv with hstable | hawaits
  · exact .inl (hkeep v hstable)
  · exact .inr (hawaits.next hv).2

/-- An iteration begins with every turn to come. -/
theorem Ready.enter {iteration : UInt32} {hook : Hook σ} (h : s.Ready settings g stable)
    (hkeep : ∀ v, stable s v → stable ((s.enter iteration).run hook) v) :
    ((s.enter iteration).run hook).Settling settings g stable 0 := by
  intro v hv
  rcases h v hv with hstable | hdue
  · exact .inl (hkeep v hstable)
  · exact .inr (.inl ⟨Nat.zero_le _, hdue⟩)

/-! ## Sweeps that everyone joins -/

/-- In a selective run every vertex from `k` on is due, and every one below `k` is requested. -/
def Queued (settings : Settings) (g : Adjacency) (k : Nat) (s : Stage σ V E) : Prop :=
  settings.selective = true → ∀ v : VertexId, v.toNat < g.vertexCount →
    (k ≤ v.toNat → s.tasks.isDue v = true) ∧ (v.toNat < k → s.tasks.isRequested v = true)

namespace Queued

theorem isDue (h : s.Queued settings g v.toNat) (hsel : settings.selective = true)
    (hv : v.toNat < g.vertexCount) : s.tasks.isDue v = true :=
  (h hsel v hv).1 (Nat.le_refl _)

/-- An update that requests its own vertex keeps everyone in the queue. -/
theorem updated {u : Update σ V E} {activity : Activity} {urgent : Bool}
    (h : s.Queued settings g v.toNat) (hbound : g.vertexCount ≤ s.tasks.bound)
    (hkeep : ∀ first last, .remove first last ∉ u.requests) (hself : .add v urgent ∈ u.requests) :
    (s.updated settings v u activity).Queued settings g (v.toNat + 1) := by
  intro hsel w hw
  simp only [Stage.updated, if_pos hsel]
  refine ⟨fun hle => ?_, fun hlt => ?_⟩
  · have hne : w ≠ v := by
      rintro rfl
      omega
    exact Tasks.isDue_grantAll hkeep ((Tasks.isDue_take hne).trans ((h hsel w hw).1 (by omega)))
  · by_cases hwv : w = v
    · subst hwv
      exact Tasks.isRequested_of_mem hself (by rw [Tasks.bound_take]; omega)
    · have hnat : w.toNat ≠ v.toNat := fun heq => hwv (UInt32.toNat_inj.1 heq)
      exact Tasks.isRequested_grantAll
        (Tasks.isRequested_take.trans ((h hsel w hw).2 (by omega)))

/-- After a sweep that everyone joined the next one is such a sweep too. -/
theorem close (h : s.Queued settings g g.vertexCount) :
    (s.close program).Queued settings g 0 := fun hsel v hv =>
  ⟨fun _ => (h hsel v hv).2 hv, fun hlt => absurd hlt (Nat.not_lt_zero _)⟩

theorem enter {iteration : UInt32} {hook : Hook σ} (h : s.Queued settings g 0) :
    ((s.enter iteration).run hook).Queued settings g 0 := h

/-- Nobody is left out of the sweep. -/
theorem ready (h : s.Queued settings g 0) : s.Ready settings g stable := fun v hv =>
  .inr fun hsel => (h hsel v hv).1 (Nat.zero_le _)

/-- After a sweep that everyone joined there are tasks left, unless there is no vertex. -/
theorem vertexCount_eq_zero (h : s.Queued settings g g.vertexCount)
    (hsel : settings.selective = true) (hactive : (s.close program).tasks.isActive = false) :
    g.vertexCount = 0 := by
  refine Nat.eq_zero_of_not_pos fun hpos => ?_
  have hzero : (0 : VertexId).toNat < g.vertexCount := hpos
  have hdue : s.tasks.isRequested 0 = false := Tasks.isDue_eq_false hactive
  rw [(h hsel 0 hzero).2 hzero] at hdue
  cases hdue

end Queued

/-- A run begins with everyone in the queue. -/
theorem queued_addAll {values : Array V} {slots : Array E} {state : σ}
    (hn : g.vertexCount ≤ maxWord) :
    ({ state, values, slots, tasks := (Tasks.ofVertexCount g.vertexCount).addAll } :
      Stage σ V E).Queued settings g 0 := by
  refine fun _ v hv => ⟨fun _ => Tasks.isDue_addAll ?_, fun hlt => absurd hlt (Nat.not_lt_zero _)⟩
  show v.toNat < min g.vertexCount maxWord
  omega

end VertexSweep.Stage
