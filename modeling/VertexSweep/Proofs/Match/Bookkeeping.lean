import VertexSweep.Proofs.Match.Counting
import VertexSweep.Proofs.Match.Greatest
import VertexSweep.Proofs.Sweep.Steps

/-!
# The books of a simulation

A simulation keeps count in four places: the table has its pairs, the counters of added and of
dropped pairs go up, the history gets a total after each iteration, and the run counts the turns
that reported a change. `Moves` is what the turns of one iteration have done so far to the first
two, `Records` what the whole iteration has done to all four. So the pairs are balanced at every
stage, be it one at which an update has failed (`run_recounts`). None of this needs a pattern that
fits the table, nor values in the graph that make sense.
-/

namespace VertexSweep.Simulation

variable {pattern : Pattern} {labels : VertexId → Label} {settings : Settings} {g : Adjacency}
  {t : Candidates} {m m' m₀ : Matching} {s s' : Stage Matching Label Label} {v : VertexId}
  {i k n changed : Nat}

/-- Each pair was there or has been added, and is left or has been dropped. -/
def Balanced (t : Candidates) (m : Matching) : Prop :=
  t.total + m.seeded = m.table.total + m.pruned

theorem Balanced.gains (h : Balanced t m) (hgains : Gains n m m') : Balanced t m' := by
  have hbefore : t.total + m.seeded = m.table.total + m.pruned := h
  show t.total + m'.seeded = m'.table.total + m'.pruned
  rw [hgains.seeded, hgains.total, hgains.pruned]
  omega

theorem Balanced.loses (h : Balanced t m) (hloses : Loses n m m') : Balanced t m' := by
  have hbefore : t.total + m.seeded = m.table.total + m.pruned := h
  have htotal := hloses.total
  show t.total + m'.seeded = m'.table.total + m'.pruned
  rw [hloses.seeded, hloses.pruned]
  omega

/-- `n` pairs were moved by as many turns as reported a change, or more. -/
def Tallies (changed n : Nat) : Prop := changed ≤ n ∧ (n = 0 ↔ changed = 0)

/-- A turn reports a change exactly if it moves a pair. -/
theorem Tallies.turn {b : Activity} (h : Tallies changed n) (hquiet : b = .quiet ↔ k = 0) :
    Tallies (if b.isChanged then changed + 1 else changed) (n + k) := by
  obtain ⟨hle, hzero⟩ := h
  cases b with
  | quiet =>
    rw [hquiet.1 rfl]
    exact ⟨hle, hzero⟩
  | changed =>
    have hpos : k ≠ 0 := fun hk => nomatch hquiet.2 hk
    show changed + 1 ≤ n + k ∧ (n + k = 0 ↔ changed + 1 = 0)
    omega

/-! ## One iteration -/

/-- What the turns of iteration `i` have made of `m₀` when `changed` of them have reported a change.
Iteration 0 does not look at the table, and after that it is all the same whether the vertices are
still seeded or refined already: what was moved is tallied. -/
inductive Moves (i : Nat) (m₀ : Matching) (changed : Nat) (m : Matching) : Prop
  | labels (hi : i = 0) (h : m = m₀)
  | seeds {n : Nat} (hi : i ≠ 0) (hopen : m₀.table.isSealed = false) (h : Gains n m₀ m)
      (htallies : Tallies changed n)
  | refines {n : Nat} (hi : i ≠ 0) (hsealed : m₀.table.isSealed = true) (h : Loses n m₀ m)
      (htallies : Tallies changed n)

theorem Moves.start (h : m.table.WF) : Moves i m 0 m := by
  by_cases hi : i = 0
  · exact .labels hi rfl
  cases hsealed : m.table.isSealed with
  | false => exact .seeds hi hsealed (.refl h) ⟨Nat.le_refl 0, Iff.rfl⟩
  | true => exact .refines hi hsealed (.refl h) ⟨Nat.le_refl 0, Iff.rfl⟩

theorem updateOf_program (hs : s.control.iteration = UInt32.ofNat i) (hi : i < 4294967296) :
    s.updateOf (program pattern labels) settings g v =
      if i = 0 then assign (labels v) s.state ⟨v, s.values.getD v.toNat default, g, s.slots⟩
      else if s.state.table.isSealed then
        refine pattern s.state ⟨v, s.values.getD v.toNat default, g, s.slots⟩
      else seed pattern s.state ⟨v, s.values.getD v.toNat default, g, s.slots⟩ := by
  have hzero : s.control.iteration = 0 ↔ i = 0 := by
    rw [hs, ← UInt32.toNat_inj, UInt32.toNat_ofNat_of_lt' hi]
    rfl
  simp only [Stage.updateOf, program, hzero]

/-- A turn goes on moving pairs, and whatever it has moved when it fails is in the books. -/
theorem Moves.visit (h : Moves i m₀ s.changed s.state) (hs : s.control.iteration = UInt32.ofNat i)
    (hi : i < 4294967296) (hbalanced : Balanced t m₀) :
    Yields (s.visit (program pattern labels) settings g v) (Balanced t ·.state) fun s' =>
      s'.control.iteration = UInt32.ofNat i ∧ Moves i m₀ s'.changed s'.state := by
  have hupdate : s.updateOf (program pattern labels) settings g v = _ := updateOf_program hs hi
  cases h with
  | labels hzero hsame =>
    rw [if_pos hzero] at hupdate
    refine Stage.visit_yields (fun _ _ => ⟨hs, .labels hzero hsame⟩) (fun fault hfault => ?_)
      fun activity _ _ => ?_
    · rw [hupdate] at hfault
      cases hfault
    · rw [hupdate]
      exact ⟨hs, .labels hzero hsame⟩
  | seeds hpos hopen hgains htallies =>
    rw [if_neg hpos, hgains.isSealed, hopen, if_neg Bool.false_ne_true] at hupdate
    obtain ⟨k, hmore, hactivity⟩ := seed_gains pattern
      ⟨v, s.values.getD v.toNat default, g, s.slots⟩ hgains.wf
    refine Stage.visit_yields (fun _ _ => ⟨hs, .seeds hpos hopen hgains htallies⟩)
      (fun fault _ => ?_) fun activity _ hok => ?_
    · rw [hupdate]
      exact hbalanced.gains (hgains.trans hmore)
    · rw [hupdate] at hok ⊢
      exact ⟨hs, .seeds hpos hopen (hgains.trans hmore) (htallies.turn (hactivity activity hok))⟩
  | refines hpos hsealed hloses htallies =>
    rw [if_neg hpos, hloses.isSealed, hsealed, if_pos rfl] at hupdate
    obtain ⟨b, k, hverdict, hmore, hactivity⟩ := refine_loses pattern
      ⟨v, s.values.getD v.toNat default, g, s.slots⟩ hloses.wf
    refine Stage.visit_yields (fun _ _ => ⟨hs, .refines hpos hsealed hloses htallies⟩)
      (fun fault hfault => ?_) fun activity _ hok => ?_
    · rw [hupdate, hverdict] at hfault
      cases hfault
    · rw [hupdate] at hok ⊢
      rw [hverdict] at hok
      cases hok
      exact ⟨hs, .refines hpos hsealed (hloses.trans hmore) (htallies.turn hactivity)⟩

/-- The books before iteration `i` of a run from `t`. -/
structure Kept (t : Candidates) (i : Nat) (s : Stage Matching Label Label) : Prop where
  wf : s.state.table.WF
  balanced : Balanced t s.state
  isSealed : i ≤ 1 → s.state.table.isSealed = t.isSealed

/-- The books when iteration `i` has begun with `m₀`, whose table the hook may have sealed. -/
structure Opened (t : Candidates) (i : Nat) (m m₀ : Matching) : Prop where
  wf : m₀.table.WF
  balanced : Balanced t m₀
  total : m₀.table.total = m.table.total
  history : m₀.history = m.history
  isSealed_of_first : i = 0 → m₀.table.isSealed = t.isSealed
  isSealed_iff : i ≠ 0 → (m₀.table.isSealed = true ↔ firstRefining t ≤ i)

theorem Kept.opened (h : Kept t i s) (hi : i < 4294967296) : Opened t i s.state
    ((s.enter (UInt32.ofNat i)).run (program pattern labels).beforeIteration).state := by
  rw [state_enter hi]
  by_cases hlate : 2 ≤ i
  · rw [if_pos hlate]
    refine ⟨Candidates.wf_sealed.2 h.wf, h.balanced, rfl, rfl, fun hzero => ?_,
      fun _ => iff_of_true rfl ?_⟩
    · omega
    · exact Nat.le_trans firstRefining_le hlate
  · rw [if_neg hlate]
    have hsealed := h.isSealed (by omega)
    refine ⟨h.wf, h.balanced, rfl, rfl, fun _ => hsealed, fun hpos => ?_⟩
    rw [hsealed]
    cases hopen : t.isSealed with
    | false =>
      rw [firstRefining_of_isOpen hopen]
      exact iff_of_false Bool.false_ne_true hlate
    | true =>
      rw [firstRefining_of_isSealed hopen]
      exact iff_of_true rfl (Nat.one_le_iff_ne_zero.2 hpos)

/-- What iteration `i` of a run from `t` enters in the books. -/
structure Records (t : Candidates) (i : Nat) (s : Stage Matching Label Label)
    (round : RoundSummary) (s' : Stage Matching Label Label) : Prop where
  kept : Kept t (i + 1) s'
  history : s'.state.history = s.state.history.push s'.state.table.total
  moved : i ≠ 0 → ∃ n, Tallies round.changed n ∧
    ((i < firstRefining t ∧ s'.state.table.total = s.state.table.total + n) ∨
      (firstRefining t ≤ i ∧ s'.state.table.total + n = s.state.table.total))

theorem Moves.records (h : Moves i m₀ s'.changed s'.state) (hopened : Opened t i s.state m₀) :
    Records t i s s'.summary (s'.close (program pattern labels)) := by
  have hclose : (s'.close (program pattern labels)).state =
      { s'.state with history := s'.state.history.push s'.state.table.total } := rfl
  obtain ⟨hwf, hbalanced, htotal, hhistory, hfirst, hsealed⟩ := hopened
  cases h with
  | labels hzero hsame =>
    rw [← hsame] at hwf hbalanced htotal hhistory hfirst
    refine ⟨⟨?_, ?_, fun _ => ?_⟩, ?_, fun hpos => absurd hzero hpos⟩ <;> rw [hclose]
    · exact hwf
    · exact hbalanced
    · exact hfirst hzero
    · exact congrArg (·.push s'.state.table.total) hhistory
  | seeds hpos hopen hgains htallies =>
    refine ⟨⟨?_, ?_, fun hle => ?_⟩, ?_, fun _ => ⟨_, htallies, .inl ⟨?_, ?_⟩⟩⟩
    · rw [hclose]
      exact hgains.wf
    · exact (hbalanced.gains hgains : Balanced t s'.state)
    · omega
    · rw [hclose]
      exact congrArg (·.push s'.state.table.total) (hgains.history.trans hhistory)
    · refine Nat.not_le.1 fun hle => ?_
      rw [(hsealed hpos).2 hle] at hopen
      cases hopen
    · rw [← htotal]
      exact hgains.total
  | refines hpos hrefines hloses htallies =>
    refine ⟨⟨?_, ?_, fun hle => ?_⟩, ?_, fun _ => ⟨_, htallies, .inr ⟨?_, ?_⟩⟩⟩
    · rw [hclose]
      exact hloses.wf
    · exact (hbalanced.loses hloses : Balanced t s'.state)
    · omega
    · rw [hclose]
      exact congrArg (·.push s'.state.table.total) (hloses.history.trans hhistory)
    · exact (hsealed hpos).1 hrefines
    · rw [← htotal]
      exact hloses.total

theorem Kept.iterate (h : Kept t i s) (hi : i < 4294967296) {ws : List Window} :
    Yields (s.iterate (program pattern labels) settings g ws (UInt32.ofNat i)) (Balanced t ·.state)
      fun out => Records t i s out.1 out.2 := by
  obtain ⟨m₀, hm₀⟩ : ∃ m₀,
      ((s.enter (UInt32.ofNat i)).run (program pattern labels).beforeIteration).state = m₀ :=
    ⟨_, rfl⟩
  have hopened : Opened t i s.state m₀ := hm₀ ▸ h.opened hi
  have hiterate : Yields (s.iterate (program pattern labels) settings g ws (UInt32.ofNat i))
      (Balanced t ·.state) _ := Stage.iterate_keeps
    (J := fun s' => s'.control.iteration = UInt32.ofNat i ∧ Moves i m₀ s'.changed s'.state)
    ⟨rfl, hm₀ ▸ .start (hm₀ ▸ hopened.wf)⟩ (fun _ _ hs => hs) (fun _ _ hs => hs)
    fun _ _ hs => hs.2.visit hs.1 hi hopened.balanced
  refine hiterate.imp ?_
  rintro _ ⟨s', rfl, -, hmoves⟩
  exact hmoves.records hopened

/-! ## Whole runs -/

/-- The history has the totals of all stages but the first. -/
theorem toList_history {stages : List (Stage Matching Label Label)} {rounds : List RoundSummary}
    {first last : Stage Matching Label Label} (h : Stage.Linked (Records t) i stages rounds)
    (hfirst : stages.head? = some first) (hlast : stages.getLast? = some last) :
    last.state.history.toList =
      first.state.history.toList ++ stages.tail.map (·.state.table.total) := by
  induction h generalizing first with
  | last =>
    cases hfirst
    cases hlast
    exact (List.append_nil _).symm
  | cons hrecords _ ih =>
    cases hfirst
    rw [ih rfl (by rwa [List.getLast?_cons_cons] at hlast), hrecords.history, Array.toList_push,
      List.append_assoc]
    rfl

/-- The history of a run from `t` has the totals of the stages that it went through, and it agrees
with the report: the total moves in a round if and only if the round has changes, and by no less
than their number. Once vertices are refined it does not rise. -/
structure Recounts (t : Candidates) (stages : List (Stage Matching Label Label))
    (run : Finished Matching Label Label) : Prop where
  size : run.state.history.size = run.report.rounds.size
  history : run.state.history.toList = stages.tail.map (·.state.table.total)
  distance : ∀ {i before after : Nat} {round : RoundSummary},
    run.state.history[i]? = some before → run.state.history[i + 1]? = some after →
    run.report.rounds[i + 1]? = some round →
    round.changed ≤ ((after : Int) - before).natAbs ∧
      (((after : Int) - before).natAbs = 0 ↔ round.changed = 0)
  falls : ∀ {i before after : Nat}, firstRefining t ≤ i + 1 →
    run.state.history[i]? = some before → run.state.history[i + 1]? = some after → after ≤ before

theorem recounts_of_linked {stages : List (Stage Matching Label Label)}
    {run : Finished Matching Label Label} {first last : Stage Matching Label Label}
    (h : Stage.Linked (Records t) 0 stages run.report.rounds.toList)
    (hfirst : stages.head? = some first) (hempty : first.state.history = #[])
    (hlast : stages.getLast? = some last) (hrun : run.state = last.state) :
    Recounts t stages run := by
  have hhistory : run.state.history.toList = stages.tail.map (·.state.table.total) := by
    rw [hrun, toList_history h hfirst hlast, hempty]
    rfl
  have hlength := h.length_eq
  have hsize : run.state.history.size = run.report.rounds.size := by
    rw [← Array.length_toList, hhistory, List.length_map, List.length_tail, hlength,
      Array.length_toList, Nat.add_sub_cancel]
  -- The stage that a history entry was taken from.
  have hstage : ∀ {i total}, run.state.history[i]? = some total →
      ∃ s, stages[i + 1]? = some s ∧ s.state.table.total = total := by
    intro i total htotal
    rw [← Array.getElem?_toList, hhistory, List.getElem?_map, List.getElem?_tail] at htotal
    exact Option.map_eq_some_iff.1 htotal
  have hmoved : ∀ {i before after round}, run.state.history[i]? = some before →
      run.state.history[i + 1]? = some after → run.report.rounds[i + 1]? = some round →
      ∃ n, Tallies round.changed n ∧ ((i + 1 < firstRefining t ∧ after = before + n) ∨
        (firstRefining t ≤ i + 1 ∧ after + n = before)) := by
    intro i before after round hbefore hafter hround
    obtain ⟨s, hs, rfl⟩ := hstage hbefore
    obtain ⟨s', hs', rfl⟩ := hstage hafter
    have hrecords := h.step_of_getElem? hs hs' (by rwa [Array.getElem?_toList])
    rw [Nat.zero_add] at hrecords
    exact hrecords.moved (Nat.succ_ne_zero i)
  refine ⟨hsize, hhistory, fun {i before after round} hbefore hafter hround => ?_,
    fun {i before after} hrefines hbefore hafter => ?_⟩
  · obtain ⟨n, ⟨hle, hzero⟩, ⟨-, rfl⟩ | ⟨-, rfl⟩⟩ := hmoved hbefore hafter hround
    · rw [show (((before + n : Nat) : Int) - before).natAbs = n by omega]
      exact ⟨hle, hzero⟩
    · rw [show ((after : Int) - ((after + n : Nat) : Int)).natAbs = n by omega]
      exact ⟨hle, hzero⟩
  · obtain ⟨hlt, -⟩ := Array.getElem?_eq_some_iff.1 hafter
    obtain ⟨n, -, ⟨hseeds, -⟩ | ⟨-, rfl⟩⟩ :=
      hmoved hbefore hafter (Array.getElem?_eq_getElem (hsize ▸ hlt))
    · omega
    · exact Nat.le_add_right after n

/-- **The books of a simulation are in order**, whatever the table it starts from: each pair was
there or has been added, and is left or has been dropped, also when an update has failed; and if the
run comes to its end, history and report agree with the stages that it went through. -/
theorem run_recounts (pattern : Pattern) (labels : VertexId → Label) (settings : Settings)
    (ht : t.Built) (graph : DataGraph Label Label) :
    (∀ aborted, (program pattern labels).run settings { table := t } graph = .error aborted →
      t.total + aborted.state.seeded = aborted.state.table.total + aborted.state.pruned) ∧
    ∀ run, (program pattern labels).run settings { table := t } graph = .ok run →
      t.total + run.state.seeded = run.state.table.total + run.state.pruned ∧
        Recounts t ((program pattern labels).trace settings { table := t } graph) run := by
  obtain ⟨g, values, slots⟩ := graph
  have hceiling : settings.maxIterations.toNat < 4294967296 := settings.maxIterations.toNat_lt
  have hyields : Yields ((program pattern labels).run settings { table := t } ⟨g, values, slots⟩)
      (Balanced t ·.state) _ :=
    VertexProgram.run_linked (I := Kept t) (fun _ hrecords => hrecords.kept)
      (fun hi h => h.iterate (Nat.lt_trans hi hceiling)) ⟨ht.wf, rfl, fun _ => rfl⟩
  constructor
  · intro aborted hrun
    rw [hrun] at hyields
    exact hyields
  · intro run hrun
    obtain ⟨hlinked, last, hlast, hfinish, hkept⟩ := hyields.of_eq_ok hrun
    have hstate : run.state = last.state := congrArg Finished.state hfinish
    exact ⟨hstate ▸ hkept.balanced,
      recounts_of_linked hlinked VertexProgram.head?_trace rfl hlast hstate⟩

/-- Two pattern vertices with one label. -/
def namesakes : Pattern := ⟨#[0, 0, 0], #[], #[1, 1]⟩

/-- A table with no room for the second of the namesakes. -/
def narrowTable : Candidates := .ofCapacity 4 1

/-- One run comes to its end. The other fails halfway through a vertex, with one candidate added. -/
theorem run_recounts_partialTable : partialTable.Built ∧ narrowTable.Built ∧
    (∃ run, twoCycle.program.run {} { table := partialTable } (.ofAdjacency twoCycle.graph) =
        .ok run ∧
      run.state.history = #[1, 4, 3, 2, 2] ∧
      partialTable.total + run.state.seeded = run.state.table.total + run.state.pruned ∧
      Recounts partialTable
        (twoCycle.program.trace {} { table := partialTable } (.ofAdjacency twoCycle.graph)) run) ∧
    ∃ aborted, (program namesakes fun _ => 1).run {} { table := narrowTable }
        (.ofAdjacency twoCycle.graph) = .error aborted ∧
      aborted.state.seeded = 1 ∧
      narrowTable.total + aborted.state.seeded =
        aborted.state.table.total + aborted.state.pruned := by
  have hpartial : partialTable.Built := .add _ _ (.ofCapacity 4 2)
  have hnarrow : narrowTable.Built := .ofCapacity 4 1
  obtain ⟨run, hrun, hhistory⟩ := Yields.exists_ok_of_any
    (x := twoCycle.program.run {} { table := partialTable } (.ofAdjacency twoCycle.graph))
    (f := (·.state.history == #[1, 4, 3, 2, 2])) (by decide +kernel)
  obtain ⟨aborted, hstopped, hseeded⟩ := Yields.exists_error_of_any
    (x := (program namesakes fun _ => 1).run {} { table := narrowTable }
      (.ofAdjacency twoCycle.graph))
    (f := (·.state.seeded == 1)) (by decide +kernel)
  obtain ⟨-, hends⟩ := run_recounts twoCycle.pattern twoCycle.labels {} hpartial
    (.ofAdjacency twoCycle.graph)
  obtain ⟨hfails, -⟩ := run_recounts namesakes (fun _ => 1) {} hnarrow (.ofAdjacency twoCycle.graph)
  exact ⟨hpartial, hnarrow, ⟨run, hrun, beq_iff_eq.1 hhistory, hends run hrun⟩,
    aborted, hstopped, beq_iff_eq.1 hseeded, hfails aborted hstopped⟩

end VertexSweep.Simulation
