import VertexSweep.Proofs.Sweep.Invariant

/-!
# Raising the iteration ceiling

A run that may carry out more iterations ends as it did before, or it goes on from the stage at
which it was stopped (`RunInvariant.runFrom_add`). That is about one program under one setting; the
ceiling is itself a setting, which an update can read. A program that does not (`IgnoresCeiling`)
runs alike under two ceilings as far as both of them let it (`IgnoresCeiling.runFrom`).
-/

namespace VertexSweep

variable {σ V E : Type} [Inhabited V] {program : VertexProgram σ V E} {settings : Settings}
  {g : Adjacency}

/-! ## More iterations -/

/-- **A run that is given more iterations** ends as it did, or goes on from the stage at which it
was stopped, of which everything is true that holds between iterations. -/
theorem RunInvariant.runFrom_add {fails : Aborted σ V E → Prop}
    (I : RunInvariant program settings g fails) (hn : g.vertexCount ≤ 4294967296) (extra : Nat) :
    ∀ (left : Nat) {rounds : Array RoundSummary} {s : Stage σ V E},
      rounds.size + left ≤ settings.maxIterations.toNat →
      s.tasks.bound = min g.vertexCount maxWord → I.between rounds s →
      s.runFrom program settings g (windows g.vertexCount settings.intervalSize) rounds
          (UInt32.ofNat rounds.size) (left + extra) =
        s.runFrom program settings g (windows g.vertexCount settings.intervalSize) rounds
          (UInt32.ofNat rounds.size) left ∨
      ∃ rounds' s', rounds'.size = rounds.size + left ∧
        s'.tasks.bound = min g.vertexCount maxWord ∧ I.between rounds' s' ∧
        s.runFrom program settings g (windows g.vertexCount settings.intervalSize) rounds
            (UInt32.ofNat rounds.size) left =
          .ok (s'.finish g .iterationLimit rounds') ∧
        s.runFrom program settings g (windows g.vertexCount settings.intervalSize) rounds
            (UInt32.ofNat rounds.size) (left + extra) =
          s'.runFrom program settings g (windows g.vertexCount settings.intervalSize) rounds'
            (UInt32.ofNat rounds'.size) extra
  | 0, rounds, s, _, hbound, h =>
    .inr ⟨rounds, s, rfl, hbound, h, rfl, by rw [Nat.zero_add]⟩
  | left + 1, rounds, s, hleft, hbound, h => by
    have hround : rounds.size < settings.maxIterations.toNat := by omega
    have hiterate := I.iterate_yields hn hround hbound h
    rw [Nat.succ_add]
    cases hres : s.iterate program settings g (windows g.vertexCount settings.intervalSize)
        (UInt32.ofNat rounds.size) with
    | error aborted =>
      left
      rw [Stage.runFrom_of_error hres, Stage.runFrom_of_error hres]
    | ok out =>
      obtain ⟨s', rfl, hs', hduring⟩ := hiterate.of_eq_ok hres
      cases hend : (s'.close program).outcome? settings s'.summary with
      | some outcome =>
        left
        rw [Stage.runFrom_of_some hres hend, Stage.runFrom_of_some hres hend]
      | none =>
        rw [Stage.runFrom_of_none hres hend, Stage.runFrom_of_none hres hend]
        have hsize : (rounds.push s'.summary).size + left = rounds.size + (left + 1) := by
          rw [Array.size_push]
          omega
        rw [← hsize] at hleft ⊢
        exact I.runFrom_add hn extra left hleft (hs'.run _).bound (I.ends hround hs' hduring hend)

/-! ## Two ceilings -/

/-- The program does not look at the ceiling. -/
def VertexProgram.IgnoresCeiling (program : VertexProgram σ V E) : Prop :=
  ∀ iteration settings limit state view,
    program.update ⟨iteration, { settings with maxIterations := limit }⟩ state view =
      program.update ⟨iteration, settings⟩ state view

namespace VertexProgram.IgnoresCeiling

variable {limit : UInt32} {s : Stage σ V E} {ws : List Window}

theorem iterate (h : program.IgnoresCeiling) {iteration : UInt32} :
    s.iterate program { settings with maxIterations := limit } g ws iteration =
      s.iterate program settings g ws iteration := by
  have hvisit : Stage.visit program { settings with maxIterations := limit } g =
      Stage.visit program settings g :=
    funext fun s => funext fun v =>
      Stage.visit_congr rfl fun iteration => h iteration settings limit
  have hsweep : Stage.sweep program { settings with maxIterations := limit } g =
      Stage.sweep program settings g := by
    unfold Stage.sweep
    rw [hvisit]
  unfold Stage.iterate
  rw [hsweep]

/-- Two runs of the same length under two ceilings are the same. -/
theorem runFrom (h : program.IgnoresCeiling) {rounds : Array RoundSummary} {iteration : UInt32}
    {left : Nat} :
    s.runFrom program { settings with maxIterations := limit } g ws rounds iteration left =
      s.runFrom program settings g ws rounds iteration left :=
  Stage.runFrom_congr rfl fun _ _ => h.iterate

end VertexProgram.IgnoresCeiling

/-- **A run under a higher ceiling** is the run under the lower one, or it goes on from the stage at
which that one was stopped. -/
theorem RunInvariant.run_raised {fails : Aborted σ V E → Prop} {limit : UInt32}
    (I : RunInvariant program { settings with maxIterations := limit } g fails)
    (hignores : program.IgnoresCeiling) (hn : g.vertexCount ≤ 4294967296)
    (hlimit : settings.maxIterations ≤ limit) {state : σ} {values : Array V} {slots : Array E}
    (start : I.between #[]
      { state, values, slots, tasks := (Tasks.ofVertexCount g.vertexCount).addAll }) :
    program.run { settings with maxIterations := limit } state ⟨g, values, slots⟩ =
        program.run settings state ⟨g, values, slots⟩ ∨
      ∃ rounds s, rounds.size = settings.maxIterations.toNat ∧
        s.tasks.bound = min g.vertexCount maxWord ∧ I.between rounds s ∧
        program.run settings state ⟨g, values, slots⟩ =
          .ok (s.finish g .iterationLimit rounds) ∧
        program.run { settings with maxIterations := limit } state ⟨g, values, slots⟩ =
          s.runFrom program { settings with maxIterations := limit } g
            (windows g.vertexCount settings.intervalSize) rounds (UInt32.ofNat rounds.size)
            (limit.toNat - settings.maxIterations.toNat) := by
  have hle : settings.maxIterations.toNat ≤ limit.toNat := UInt32.le_iff_toNat_le.1 hlimit
  have hlower : program.run settings state ⟨g, values, slots⟩ =
      Stage.runFrom program { settings with maxIterations := limit } g
        (windows g.vertexCount settings.intervalSize)
        { state, values, slots, tasks := (Tasks.ofVertexCount g.vertexCount).addAll } #[] 0
        settings.maxIterations.toNat := hignores.runFrom.symm
  have hadd := I.runFrom_add hn (limit.toNat - settings.maxIterations.toNat)
    settings.maxIterations.toNat (by simpa using hle) rfl start
  rw [Nat.add_sub_cancel' hle] at hadd
  rw [hlower]
  rcases hadd with hsame | ⟨rounds, s, hsize, hbound, hs, hstopped, hgoes⟩
  · exact .inl hsame
  · exact .inr ⟨rounds, s, hsize.trans (Nat.zero_add _), hbound, hs, hstopped, hgoes⟩

end VertexSweep
