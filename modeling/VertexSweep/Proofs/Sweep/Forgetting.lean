import VertexSweep.Proofs.Graph.Links
import VertexSweep.Proofs.Sweep.Coupling
import VertexSweep.Proofs.Sweep.Settling

/-!
# Runs that forget what the graph held before

The first sweep of a program can make the values that it finds in the graph immaterial. For that,
the first turn of a vertex must not read anything, and must write its value and some of its slots;
and later turns must depend on no other slots (`VertexProgram.Forgetful`). Slots that nobody reads
may keep what they held. Then two runs that start from different values stay in step: while the
first sweep is under way they agree about the vertices that have had their turn
(`Stage.Rewriting`), and afterwards they differ only in slots that nobody reads
(`Stage.Rewritten`). So nothing remains of the values at the start but what stands in those slots
(`VertexProgram.Forgetful.forgets`).
-/

namespace VertexSweep

variable {σ V E : Type}

/-- Updates that leave the same behind, up to slots that are not fresh. -/
structure Update.Alike (fresh : Nat → Prop) (u u' : Update σ V E) : Prop where
  state : u'.state = u.state
  requests : u'.requests = u.requests
  verdict : u'.verdict = u.verdict
  value : u'.view.value = u.view.value
  slot : ∀ j, fresh j → u'.view.slots[j]? = u.view.slots[j]?

theorem Update.Alike.refl {fresh : Nat → Prop} {u : Update σ V E} : u.Alike fresh u :=
  ⟨rfl, rfl, rfl, rfl, fun _ _ => rfl⟩

/-- In iteration 0 the turn of `v` reads nothing, sets the value and writes to `links`. -/
def VertexProgram.Resets (program : VertexProgram σ V E) (g : Adjacency) (settings : Settings)
    (state : σ) (v : VertexId) (links : Array Link) : Prop :=
  ∃ state' c x requests activity, (∀ first last, .remove first last ∉ requests) ∧
    ∀ value slots, program.update ⟨0, settings⟩ state ⟨v, value, g, slots⟩ =
      ⟨state', (View.mk v c g slots).writeAll links x, requests, .ok activity⟩

/-- What is to be shown of a program so that its runs forget. -/
structure VertexProgram.Forgetful (program : VertexProgram σ V E) (g : Adjacency) where
  /-- Slots that are written by the first turns of the vertices below `k`, if they are read at
  all. -/
  fresh : (k : Nat) → Nat → Prop
  edgeCount_le : ∀ {j}, fresh 0 j → g.edgeCount ≤ j
  starts : ∀ (settings : Settings) (state : σ) {v : VertexId}, v.toNat < g.vertexCount →
    ∃ links, program.Resets g settings state v links ∧
      ∀ {j}, fresh (v.toNat + 1) j → fresh v.toNat j ∨ ∃ l ∈ links, l.slot = j
  steps : ∀ {ctx : Context} {state : σ} {v : VertexId} {value : V} {slots slots' : Array E},
    ctx.iteration ≠ 0 → v.toNat < g.vertexCount →
    (∀ j, fresh g.vertexCount j → slots'[j]? = slots[j]?) →
    (program.update ctx state ⟨v, value, g, slots⟩).Alike (fresh g.vertexCount)
      (program.update ctx state ⟨v, value, g, slots'⟩)

namespace Stage

variable {program : VertexProgram σ V E} {g : Adjacency} {F : program.Forgetful g}
  {settings : Settings} {i k : Nat} {s t : Stage σ V E} {v : VertexId}

/-- The stages differ at most in the graph, and not in fresh slots. -/
structure Alike (fresh : Nat → Prop) (s t : Stage σ V E) : Prop where
  same : t = { s with values := t.values, slots := t.slots }
  slot : ∀ j, fresh j → t.slots[j]? = s.slots[j]?

/-- In iteration 0 everyone has a turn, and the vertices below `k` have had theirs. -/
structure Rewriting (F : program.Forgetful g) (settings : Settings) (k : Nat) (s t : Stage σ V E) :
    Prop extends s.Alike (F.fresh k) t where
  iteration : s.control.iteration = 0
  value : ∀ i < k, t.values[i]? = s.values[i]?
  sizes : s.values.size = g.vertexCount ∧ t.values.size = g.vertexCount
  slotSizes : s.slots.size = g.edgeCount ∧ t.slots.size = g.edgeCount
  due : settings.selective = true → ∀ v : VertexId, k ≤ v.toNat → v.toNat < g.vertexCount →
    s.tasks.isDue v = true

/-- Later the values are the same. -/
structure Rewritten (F : program.Forgetful g) (s t : Stage σ V E) :
    Prop extends s.Alike (F.fresh g.vertexCount) t where
  iteration : s.control.iteration ≠ 0
  values : t.values = s.values

namespace Alike

variable {fresh fresh' : Nat → Prop}

theorem state (h : s.Alike fresh t) : t.state = s.state := by rw [h.same]

theorem tasks (h : s.Alike fresh t) : t.tasks = s.tasks := by rw [h.same]

theorem control (h : s.Alike fresh t) : t.control = s.control := by rw [h.same]

theorem summary (h : s.Alike fresh t) : t.summary = s.summary := by
  rw [h.same]
  rfl

theorem run (h : s.Alike fresh t) (hook : Hook σ) : (s.run hook).Alike fresh (t.run hook) :=
  ⟨congrArg (Stage.run · hook) h.same, h.slot⟩

theorem enter (h : s.Alike fresh t) (iteration : UInt32) :
    (s.enter iteration).Alike fresh (t.enter iteration) :=
  ⟨congrArg (Stage.enter · iteration) h.same, h.slot⟩

theorem close (h : s.Alike fresh t) : (s.close program).Alike fresh (t.close program) :=
  ⟨congrArg (Stage.close program) h.same, h.slot⟩

theorem outcome?_eq (h : s.Alike fresh t) {round : RoundSummary} :
    t.outcome? settings round = s.outcome? settings round := by
  rw [h.same]
  rfl

/-- Updates that leave the same behind. -/
theorem updated {u u' : Update σ V E} (h : s.Alike fresh t) (hu : u.Alike fresh' u')
    (a : Activity) : (s.updated settings v u a).Alike fresh' (t.updated settings v u' a) where
  same := by
    have hvisited : t.visited = s.visited := by rw [h.same]
    have hchanged : t.changed = s.changed := by rw [h.same]
    simp only [Stage.updated, h.tasks, h.control, hvisited, hchanged, hu.state, hu.requests]
  slot := hu.slot

end Alike

/-- What is written is fresh. -/
theorem Rewriting.writeAll_alike {k' : Nat} {links : Array Link} {state : σ} {c : V} {x : E}
    {requests : Array Request} {verdict : Except Fault Activity} (h : Rewriting F settings k s t)
    (hfresh : ∀ {j}, F.fresh k' j → F.fresh k j ∨ ∃ l ∈ links, l.slot = j) :
    Update.Alike (F.fresh k')
      ⟨state, (View.mk v c g s.slots).writeAll links x, requests, verdict⟩
      ⟨state, (View.mk v c g t.slots).writeAll links x, requests, verdict⟩ := by
  have hs : (View.mk v c g s.slots).slots.size = g.edgeCount := h.slotSizes.1
  have ht : (View.mk v c g t.slots).slots.size = g.edgeCount := h.slotSizes.2
  refine ⟨rfl, rfl, rfl, by simp only [View.writeAll_eq], fun j hj => ?_⟩
  by_cases hedge : j < g.edgeCount
  · rw [View.getElem?_writeAll (Nat.lt_of_lt_of_eq hedge ht.symm),
      View.getElem?_writeAll (Nat.lt_of_lt_of_eq hedge hs.symm)]
    split
    · rfl
    · exact h.slot j ((hfresh hj).resolve_right ‹_›)
  · rw [Array.getElem?_eq_none (by rw [View.size_slots_writeAll, ht]; omega),
      Array.getElem?_eq_none (by rw [View.size_slots_writeAll, hs]; omega)]

variable [Inhabited V]

/-- A first turn makes everything fresh that it writes. -/
theorem Rewriting.visit (h : Rewriting F settings v.toNat s t) (hv : v.toNat < g.vertexCount) :
    Agree (s.visit program settings g v) (t.visit program settings g v) Aborted.Alike
      (Rewriting F settings (v.toNat + 1)) := by
  obtain ⟨links, ⟨state, c, x, requests, activity, hkeeps, hupdate⟩, hfresh⟩ :=
    F.starts settings s.state hv
  have hs : s.updateOf program settings g v =
      ⟨state, (View.mk v c g s.slots).writeAll links x, requests, .ok activity⟩ := by
    rw [updateOf, h.iteration, hupdate]
  have ht : t.updateOf program settings g v =
      ⟨state, (View.mk v c g t.slots).writeAll links x, requests, .ok activity⟩ := by
    rw [updateOf, h.control, h.state, h.iteration, hupdate]
  refine visit_agree (congrArg (·.isDue v) h.tasks) (by rw [hs, ht]) (fun hsel hdue => ?_)
    (fun fault hfault => ?_) fun a _ _ => ?_
  · rw [h.due hsel v (Nat.le_refl _) hv] at hdue
    cases hdue
  · rw [hs] at hfault
    cases hfault
  rw [hs, ht]
  refine ⟨h.toAlike.updated (h.writeAll_alike hfresh) a, h.iteration, fun i hi => ?_, ?_, ?_,
    fun hsel w hle hw => ?_⟩
  · simp only [Stage.updated, View.writeAll_eq]
    by_cases hvi : v.toNat = i
    · subst hvi
      rw [Array.getElem?_setIfInBounds_self_of_lt (h.sizes.2.symm ▸ hv),
        Array.getElem?_setIfInBounds_self_of_lt (h.sizes.1.symm ▸ hv)]
    · rw [Array.getElem?_setIfInBounds_ne hvi, Array.getElem?_setIfInBounds_ne hvi]
      exact h.value i (by omega)
  · exact ⟨Array.size_setIfInBounds.trans h.sizes.1, Array.size_setIfInBounds.trans h.sizes.2⟩
  · exact ⟨View.size_slots_writeAll.trans h.slotSizes.1,
      View.size_slots_writeAll.trans h.slotSizes.2⟩
  · have hne : w ≠ v := by
      rintro rfl
      omega
    simp only [Stage.updated, if_pos hsel]
    exact Tasks.isDue_grantAll hkeeps ((Tasks.isDue_take hne).trans (h.due hsel w (by omega) hw))

/-- A later turn reads only what is the same. -/
theorem Rewritten.visit (h : Rewritten F s t) (hv : v.toNat < g.vertexCount) :
    Agree (s.visit program settings g v) (t.visit program settings g v) Aborted.Alike
      (Rewritten F) := by
  have halike : (s.updateOf program settings g v).Alike (F.fresh g.vertexCount)
      (t.updateOf program settings g v) := by
    rw [updateOf, updateOf, h.control, h.state, h.values]
    exact F.steps h.iteration hv h.slot
  refine visit_agree (congrArg (·.isDue v) h.tasks) halike.verdict (fun _ _ => h)
    (fun fault _ => ?_) fun a _ _ => ?_
  · refine ⟨rfl, halike.state, ?_⟩
    simp only [Stage.stopped, h.values, halike.value]
  · refine ⟨h.toAlike.updated halike a, h.iteration, ?_⟩
    simp only [Stage.updated, h.values, halike.value]

/-- What holds in iteration `i` when the vertices below `k` have had their turn. -/
inductive Forgetting (F : program.Forgetful g) (settings : Settings) (i k : Nat)
    (s t : Stage σ V E) : Prop where
  | rewriting (hi : i = 0) (h : Rewriting F settings k s t)
  | rewritten (hi : 0 < i) (h : Rewritten F s t)

namespace Forgetting

omit [Inhabited V]

theorem exists_alike (h : Forgetting F settings i k s t) : ∃ fresh, s.Alike fresh t := by
  cases h with
  | rewriting _ h => exact ⟨_, h.toAlike⟩
  | rewritten _ h => exact ⟨_, h.toAlike⟩

theorem run (h : Forgetting F settings i k s t) (hook : Hook σ) :
    Forgetting F settings i k (s.run hook) (t.run hook) := by
  have hiteration : (s.run hook).control.iteration = s.control.iteration :=
    Control.iteration_heed
  cases h with
  | rewriting hi h =>
    exact .rewriting hi ⟨h.toAlike.run hook, hiteration.trans h.iteration, h.value, h.sizes,
      h.slotSizes, h.due⟩
  | rewritten hi h =>
    exact .rewritten hi ⟨h.toAlike.run hook, hiteration.symm ▸ h.iteration, h.values⟩

/-- After the first sweep nothing that is read is left of the values at its start. -/
theorem next (h : Forgetting F settings i g.vertexCount s t) {i' : Nat} (hpos : 0 < i')
    (hword : i' < 4294967296) :
    Forgetting F settings i' 0 ((s.close program).enter (UInt32.ofNat i'))
      ((t.close program).enter (UInt32.ofNat i')) := by
  have hlater : UInt32.ofNat i' ≠ 0 := by
    intro hzero
    have hnat := congrArg UInt32.toNat hzero
    rw [UInt32.toNat_ofNat_of_lt' hword] at hnat
    exact absurd hnat (Nat.ne_of_gt hpos)
  cases h with
  | rewritten _ h => exact .rewritten hpos ⟨h.toAlike.close.enter _, hlater, h.values⟩
  | rewriting _ h =>
    refine .rewritten hpos ⟨h.toAlike.close.enter _, hlater, Array.ext_getElem? fun j => ?_⟩
    by_cases hj : j < g.vertexCount
    · exact h.value j hj
    · show t.values[j]? = s.values[j]?
      rw [Array.getElem?_eq_none (by rw [h.sizes.2]; omega),
        Array.getElem?_eq_none (by rw [h.sizes.1]; omega)]

end Forgetting

/-- Two runs that forget, in step. -/
def forgetting (F : program.Forgetful g) (settings : Settings) (hn : g.vertexCount ≤ 4294967296) :
    Coupling program program settings g g Aborted.Alike where
  between rounds s t := Forgetting F settings rounds.size 0
    (s.enter (UInt32.ofNat rounds.size)) (t.enter (UInt32.ofNat rounds.size))
  during rounds k := Forgetting F settings rounds.size k
  begins _ h := h.run _
  entersWindow _ h := h.run _
  leavesWindow _ h := h.run _
  visits {rounds k s t} _ hk h := by
    have hword : (UInt32.ofNat k).toNat = k :=
      UInt32.toNat_ofNat_of_lt' (Nat.lt_of_lt_of_le hk hn)
    cases h with
    | rewriting hi h =>
      have hvisit := Rewriting.visit (v := UInt32.ofNat k) (hword.symm ▸ h) (hword.symm ▸ hk)
      rw [hword] at hvisit
      exact hvisit.imp fun _ _ => .rewriting hi
    | rewritten hi h =>
      exact (h.visit (hword.symm ▸ hk)).imp fun _ _ => .rewritten hi
  summary_eq h := by
    obtain ⟨_, halike⟩ := h.exists_alike
    exact halike.summary
  outcome?_eq h := by
    obtain ⟨_, halike⟩ := h.exists_alike
    exact halike.close.outcome?_eq
  ends {rounds s t} hround h _ := by
    have hceiling : settings.maxIterations.toNat < 4294967296 := settings.maxIterations.toNat_lt
    have hsize : (rounds.push s.summary).size = rounds.size + 1 := Array.size_push ..
    exact h.next (by omega) (by omega)

end Stage

/-! ## Whole runs -/

/-- The run does not depend on what the graph `g` held before. -/
def VertexProgram.Forgets [Inhabited V] (program : VertexProgram σ V E) (settings : Settings)
    (g : Adjacency) : Prop :=
  ∀ (state : σ) {values values' : Array V} {slots slots' : Array E},
    values.size = g.vertexCount → values'.size = g.vertexCount →
    slots.size = g.edgeCount → slots'.size = g.edgeCount →
    account (program.run settings state ⟨g, values, slots⟩) =
      account (program.run settings state ⟨g, values', slots'⟩)

/-- After the first sweep the runs would end alike. -/
theorem Stage.Forgetting.finish_alike {program : VertexProgram σ V E} {g : Adjacency}
    {F : program.Forgetful g} {settings : Settings} {i k : Nat} {s t : Stage σ V E}
    {iteration : UInt32} {outcome : Outcome} {rounds : Array RoundSummary}
    (h : Stage.Forgetting F settings i k (s.enter iteration) (t.enter iteration)) (hi : 0 < i) :
    (s.finish g outcome rounds).Alike (t.finish g outcome rounds) := by
  cases h with
  | rewriting hzero _ => omega
  | rewritten _ h => exact ⟨rfl, h.toAlike.state, h.values⟩

/-- **A run forgets what the graph held before**, unless there is no iteration at all. -/
theorem VertexProgram.Forgetful.forgets [Inhabited V] {program : VertexProgram σ V E}
    {g : Adjacency} (F : program.Forgetful g) {settings : Settings} (hn : g.vertexCount ≤ maxWord)
    (hmax : 1 ≤ settings.maxIterations) : program.Forgets settings g := by
  intro state values values' slots slots' hvalues hvalues' hslots hslots'
  have hceiling : settings.maxIterations.toNat < 4294967296 := settings.maxIterations.toNat_lt
  have hagree : Agree (program.run settings state ⟨g, values, slots⟩)
      (program.run settings state ⟨g, values', slots'⟩) Aborted.Alike Finished.Alike := by
    refine (Stage.forgetting F settings (Nat.le_succ_of_le hn)).agree (Nat.le_succ_of_le hn) rfl
      (.rewriting rfl ⟨⟨rfl, fun j hj => ?_⟩, rfl, ?_, ⟨hvalues, hvalues'⟩, ⟨hslots, hslots'⟩, ?_⟩)
      ?_ ?_
    · have hle := F.edgeCount_le hj
      show slots'[j]? = slots[j]?
      rw [Array.getElem?_eq_none (by omega), Array.getElem?_eq_none (by omega)]
    · exact fun i hi => absurd hi (Nat.not_lt_zero i)
    · exact fun hsel v _ hv => (Stage.queued_addAll hn hsel v hv).1 (Nat.zero_le _)
    · intro rounds s t outcome hround h
      exact (h.next (Nat.succ_pos rounds.size) (by omega)).finish_alike (Nat.succ_pos _)
    · intro rounds s t hsize h
      apply Stage.Forgetting.finish_alike h
      rw [hsize]
      exact UInt32.le_iff_toNat_le.1 hmax
  exact hagree.account_eq

end VertexSweep
