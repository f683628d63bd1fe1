import VertexSweep.Proofs.Sweep.Turns
import VertexSweep.Proofs.Sweep.Verdict

/-!
# The order of callbacks

The journal of a run has a grammar. `Journal.Follows` generates those that consist of completed
iterations: each of them enters window after window in order, updates vertices of that window in
ascending order, and ends with a summary that counts its updates. `Journal.Breaks` generates what a
failing update leaves of the windows of its iteration, with that update at the end.

Every loop of a run writes what the grammar says (`Stage.Writes`), so every chronicle is orderly
(`VertexProgram.orderly_chronicle`). There is no third way for a journal to end: an iteration in
which a hook asks for the end of the run is completed too.
-/

namespace VertexSweep

variable {σ V E : Type}

namespace Turn

def Succeeds (turn : Turn) : Prop := ∃ activity, turn.verdict = .ok activity

/-- Whether the update reported a change. -/
def isChanged (turn : Turn) : Bool :=
  match turn.verdict with
  | .ok activity => activity.isChanged
  | .error _ => false

end Turn

/-! ## The grammar of a journal -/

namespace Journal

/-- The entries for turns. -/
def ofTurns (turns : List Turn) : Journal := turns.map .update

/-- The turns of the vertices `vs` in iteration `i`: in their order, and in a dense run without
omission. -/
structure Visits (settings : Settings) (i : UInt32) (vs : List VertexId) (turns : List Turn) :
    Prop where
  iteration : ∀ turn ∈ turns, turn.iteration = i
  succeeds : ∀ turn ∈ turns, turn.Succeeds
  sublist : (turns.map (·.vertex)).Sublist vs
  dense : settings.selective = false → turns.map (·.vertex) = vs

/-- Windows are entered one after the other, each between its hooks. -/
inductive Sweeps (settings : Settings) (i : UInt32) : List Window → Journal → Prop
  | nil : Sweeps settings i [] []
  | cons {w ws turns j} : Visits settings i w.vertices turns → Sweeps settings i ws j →
      Sweeps settings i (w :: ws) (.beforeWindow w :: ofTurns turns ++ .afterWindow w :: j)

/-- Windows are entered up to the failure of `turn`. -/
inductive Breaks (settings : Settings) (turn : Turn) : List Window → Journal → Prop
  | here {w ws before after turns} : w.vertices = before ++ turn.vertex :: after →
      Visits settings turn.iteration before turns →
      Breaks settings turn (w :: ws) (.beforeWindow w :: ofTurns turns ++ [.update turn])
  | later {w ws turns j} : Visits settings turn.iteration w.vertices turns →
      Breaks settings turn ws j →
      Breaks settings turn (w :: ws) (.beforeWindow w :: ofTurns turns ++ .afterWindow w :: j)

/-- The iteration with the given summary, which counts its updates. -/
inductive Completes (settings : Settings) (ws : List Window) (round : RoundSummary) :
    Journal → Prop
  | intro {j} : Sweeps settings round.iteration ws j → round.visited = j.history.length →
      round.changed = j.history.countP Turn.isChanged →
      Completes settings ws round
        (.beforeIteration round.iteration :: j ++ [.afterIteration round])

/-- Iterations with the given summaries, numbered from zero. -/
inductive Follows (settings : Settings) (ws : List Window) : Array RoundSummary → Journal → Prop
  | start : Follows settings ws #[] []
  | next {rounds round j j'} : Follows settings ws rounds j → round.iteration.toNat = rounds.size →
      Completes settings ws round j' → Follows settings ws (rounds.push round) (j ++ j')

/-- Completed iterations and a further one, which ends with an update that fails. -/
inductive Interrupted (settings : Settings) (ws : List Window) (fault : Fault) : Journal → Prop
  | intro {rounds turn j j'} : Follows settings ws rounds j → turn.iteration.toNat = rounds.size →
      Breaks settings turn ws j' → turn.verdict = .error fault →
      Interrupted settings ws fault (j ++ .beforeIteration turn.iteration :: j')

variable {settings : Settings} {i : UInt32} {vs : List VertexId} {ws : List Window} {turn : Turn}
  {turns : List Turn} {rounds : Array RoundSummary} {round : RoundSummary} {j j' : Journal}

@[simp]
theorem history_nil : history [] = [] := rfl

theorem history_append : history (j ++ j') = j.history ++ j'.history := List.filterMap_append

theorem history_cons_of_none {entry : Callback} (h : entry.turn? = none) :
    history (entry :: j) = j.history := List.filterMap_cons_none h

theorem history_cons_update : history (.update turn :: j) = turn :: j.history := rfl

theorem history_ofTurns : (ofTurns turns).history = turns := by
  induction turns with
  | nil => rfl
  | cons turn turns ih => exact congrArg (turn :: ·) ih

theorem Visits.nil : Visits settings i [] [] where
  iteration _ hmem := absurd hmem List.not_mem_nil
  succeeds _ hmem := absurd hmem List.not_mem_nil
  sublist := .slnil
  dense _ := rfl

theorem Visits.append {vs' : List VertexId} {turns' : List Turn} (h : Visits settings i vs turns)
    (h' : Visits settings i vs' turns') : Visits settings i (vs ++ vs') (turns ++ turns') where
  iteration turn hmem := (List.mem_append.1 hmem).elim (h.iteration turn) (h'.iteration turn)
  succeeds turn hmem := (List.mem_append.1 hmem).elim (h.succeeds turn) (h'.succeeds turn)
  sublist := by
    rw [List.map_append]
    exact h.sublist.append h'.sublist
  dense hdense := by rw [List.map_append, h.dense hdense, h'.dense hdense]

/-! ### A failure is the end -/

theorem Sweeps.succeeds (h : Sweeps settings i ws j) : ∀ turn ∈ j.history, turn.Succeeds := by
  induction h with
  | nil => exact fun turn hmem => absurd hmem List.not_mem_nil
  | cons hvisits _ ih =>
    intro turn hmem
    rw [history_append, history_cons_of_none rfl, history_cons_of_none rfl, history_ofTurns] at hmem
    exact (List.mem_append.1 hmem).elim (hvisits.succeeds turn) (ih turn)

theorem Follows.succeeds (h : Follows settings ws rounds j) :
    ∀ turn ∈ j.history, turn.Succeeds := by
  induction h with
  | start => exact fun turn hmem => absurd hmem List.not_mem_nil
  | next _ _ hlast ih =>
    obtain ⟨hsweeps, -, -⟩ := hlast
    intro turn hmem
    rw [history_append, history_append, history_cons_of_none rfl, history_cons_of_none rfl,
      history_nil, List.append_nil] at hmem
    exact (List.mem_append.1 hmem).elim (ih turn) (hsweeps.succeeds turn)

/-- All updates before the one that fails succeed. -/
theorem Breaks.split (h : Breaks settings turn ws j) :
    ∃ earlier : Journal, j = earlier ++ [.update turn] ∧
      ∀ other ∈ earlier.history, other.Succeeds := by
  induction h with
  | here _ hvisits =>
    refine ⟨_, rfl, fun other hmem => ?_⟩
    rw [history_cons_of_none rfl, history_ofTurns] at hmem
    exact hvisits.succeeds other hmem
  | @later w ws turns j hvisits _ ih =>
    obtain ⟨earlier, rfl, hearlier⟩ := ih
    refine ⟨.beforeWindow w :: ofTurns turns ++ .afterWindow w :: earlier, by simp, ?_⟩
    intro other hmem
    rw [history_append, history_cons_of_none rfl, history_cons_of_none rfl, history_ofTurns] at hmem
    exact (List.mem_append.1 hmem).elim (hvisits.succeeds other) (hearlier other)

theorem Interrupted.split {fault : Fault} (h : Interrupted settings ws fault j) :
    ∃ (last : Turn) (earlier : Journal), j = earlier ++ [.update last] ∧
      (∀ other ∈ earlier.history, other.Succeeds) ∧ last.verdict = .error fault := by
  obtain @⟨rounds, turn, j, j', hfollows, -, hbreaks, hverdict⟩ := h
  obtain ⟨earlier, rfl, hearlier⟩ := hbreaks.split
  refine ⟨turn, j ++ .beforeIteration turn.iteration :: earlier, by simp, fun other hmem => ?_,
    hverdict⟩
  rw [history_append, history_cons_of_none rfl] at hmem
  exact (List.mem_append.1 hmem).elim (hfollows.succeeds other) (hearlier other)

end Journal

/-! ## Runs follow the grammar -/

namespace Stage

open Journal

variable {program : VertexProgram σ V E} {settings : Settings} {g : Adjacency}
  {s s' s'' : Stage (σ × Journal) V E} {j j' : Journal}

/-- From one stage of an iteration to a later one, the journal grows by `j`, and the counters with
it. -/
structure Writes (s s' : Stage (σ × Journal) V E) (j : Journal) : Prop where
  journal : s'.state.2 = s.state.2 ++ j
  iteration : s'.control.iteration = s.control.iteration
  visited : s'.visited = s.visited + j.history.length
  changed : s'.changed = s.changed + j.history.countP Turn.isChanged

namespace Writes

theorem refl : s.Writes s [] := ⟨(List.append_nil _).symm, rfl, rfl, rfl⟩

theorem trans (h : s.Writes s' j) (h' : s'.Writes s'' j') : s.Writes s'' (j ++ j') where
  journal := by rw [h'.journal, h.journal, List.append_assoc]
  iteration := h'.iteration.trans h.iteration
  visited := by rw [h'.visited, h.visited, history_append, List.length_append, Nat.add_assoc]
  changed := by rw [h'.changed, h.changed, history_append, List.countP_append, Nat.add_assoc]

theorem run {hook : Hook σ} {entry : Callback} (hentry : entry.turn? = none) :
    s.Writes (s.run (hook.noting entry)) [entry] where
  journal := rfl
  iteration := Control.iteration_heed
  visited := by
    rw [history_cons_of_none hentry]
    rfl
  changed := by
    rw [history_cons_of_none hentry]
    rfl

theorem updated [Inhabited V] {v : VertexId} {activity : Activity}
    (hverdict : (s.updateOf program.journaled settings g v).verdict = .ok activity) :
    s.Writes (s.updated settings v (s.updateOf program.journaled settings g v) activity)
      [.update (s.turnOf program settings g v)] where
  journal := rfl
  iteration := rfl
  visited := rfl
  changed := by
    have hactivity : (s.turnOf program settings g v).isChanged = activity.isChanged := by
      simp only [Turn.isChanged, turnOf, hverdict]
    rw [history_cons_update, List.countP_cons, hactivity]
    show (if _ then _ else _) = s.changed + (0 + if _ then 1 else 0)
    split <;> rfl

end Writes

/-- A turn that `s` leads to fails, and its update is the last entry. -/
structure Fails (s : Stage (σ × Journal) V E) (turn : Turn) (j : Journal)
    (a : Aborted (σ × Journal) V E) : Prop where
  journal : a.state.2 = s.state.2 ++ j
  iteration : turn.iteration = s.control.iteration
  verdict : turn.verdict = .error a.fault

theorem Writes.fails {turn : Turn} {a : Aborted (σ × Journal) V E} (h : s.Writes s' j)
    (h' : s'.Fails turn j' a) : s.Fails turn (j ++ j') a where
  journal := by rw [h'.journal, h.journal, List.append_assoc]
  iteration := h'.iteration.trans h.iteration
  verdict := h'.verdict

section
variable [Inhabited V]

/-- A turn is skipped, or it is taken. -/
theorem visit_writes (v : VertexId) : Yields (s.visit program.journaled settings g v)
    (fun a => ∃ turn, turn.vertex = v ∧ s.Fails turn [.update turn] a)
    (fun s' => ∃ turns, Visits settings s.control.iteration [v] turns ∧
      s.Writes s' (ofTurns turns)) := by
  refine visit_yields (fun hselective _ => ?skip) (fun fault hverdict => ?failure)
    fun activity _ hverdict => ?success
  case skip =>
    refine ⟨[], ⟨?_, ?_, ?_, ?_⟩, .refl⟩
    · exact fun _ hmem => absurd hmem List.not_mem_nil
    · exact fun _ hmem => absurd hmem List.not_mem_nil
    · exact List.nil_sublist _
    · exact fun hdense => absurd (hdense.symm.trans hselective) Bool.false_ne_true
  case failure => exact ⟨s.turnOf program settings g v, rfl, rfl, rfl, hverdict⟩
  case success =>
    refine ⟨[s.turnOf program settings g v], ⟨?_, ?_, .refl _, fun _ => rfl⟩, .updated hverdict⟩
    · exact fun turn hmem => List.mem_singleton.1 hmem ▸ rfl
    · exact fun turn hmem => List.mem_singleton.1 hmem ▸ ⟨activity, hverdict⟩

/-- Turns are taken up to the first that fails. -/
theorem foldlM_visit_writes (vs : List VertexId) :
    Yields (vs.foldlM (Stage.visit program.journaled settings g) s)
      (fun a => ∃ turn before after turns, vs = before ++ turn.vertex :: after ∧
        Visits settings s.control.iteration before turns ∧
        s.Fails turn (ofTurns turns ++ [.update turn]) a)
      (fun s' => ∃ turns, Visits settings s.control.iteration vs turns ∧
        s.Writes s' (ofTurns turns)) := by
  induction vs generalizing s with
  | nil => exact ⟨[], .nil, .refl⟩
  | cons v vs ih =>
    rw [List.foldlM_cons]
    refine Yields.bind ((visit_writes v).mono ?_ fun _ h => h) ?_
    · rintro a ⟨turn, rfl, hfails⟩
      exact ⟨turn, [], vs, [], rfl, .nil, hfails⟩
    · rintro s' ⟨turns, hvisits, hwrites⟩
      refine ih.mono ?_ ?_
      · rintro a ⟨turn, before, after, turns', rfl, hvisits', hfails⟩
        rw [hwrites.iteration] at hvisits'
        refine ⟨turn, v :: before, after, turns ++ turns', rfl, hvisits.append hvisits', ?_⟩
        simpa [ofTurns] using hwrites.fails hfails
      · rintro s'' ⟨turns', hvisits', hwrites'⟩
        rw [hwrites.iteration] at hvisits'
        refine ⟨turns ++ turns', hvisits.append hvisits', ?_⟩
        simpa [ofTurns] using hwrites.trans hwrites'

/-- A window is entered, and left unless a turn fails. -/
theorem sweep_writes (w : Window) : Yields (s.sweep program.journaled settings g w)
    (fun a => ∃ turn before after turns, w.vertices = before ++ turn.vertex :: after ∧
      Visits settings s.control.iteration before turns ∧
      s.Fails turn (.beforeWindow w :: ofTurns turns ++ [.update turn]) a)
    (fun s' => ∃ turns, Visits settings s.control.iteration w.vertices turns ∧
      s.Writes s' (.beforeWindow w :: ofTurns turns ++ [.afterWindow w])) := by
  have henter : s.Writes (s.run (program.journaled.beforeWindow w)) [.beforeWindow w] := .run rfl
  refine Yields.bind ((foldlM_visit_writes w.vertices).mono ?_ fun _ h => h) ?_
  · rintro a ⟨turn, before, after, turns, hsplit, hvisits, hfails⟩
    rw [henter.iteration] at hvisits
    exact ⟨turn, before, after, turns, hsplit, hvisits, henter.fails hfails⟩
  · rintro s' ⟨turns, hvisits, hwrites⟩
    rw [henter.iteration] at hvisits
    exact ⟨turns, hvisits, (henter.trans hwrites).trans (.run rfl)⟩

/-- Windows are entered up to the first failure. -/
theorem foldlM_sweep_writes (ws : List Window) :
    Yields (ws.foldlM (Stage.sweep program.journaled settings g) s)
      (fun a => ∃ turn j, Breaks settings turn ws j ∧ s.Fails turn j a)
      (fun s' => ∃ j, Sweeps settings s.control.iteration ws j ∧ s.Writes s' j) := by
  induction ws generalizing s with
  | nil => exact ⟨[], .nil, .refl⟩
  | cons w ws ih =>
    rw [List.foldlM_cons]
    refine Yields.bind ((sweep_writes w).mono ?_ fun _ h => h) ?_
    · rintro a ⟨turn, before, after, turns, hsplit, hvisits, hfails⟩
      rw [← hfails.iteration] at hvisits
      exact ⟨turn, _, .here hsplit hvisits, hfails⟩
    · rintro s' ⟨turns, hvisits, hwrites⟩
      refine ih.mono ?_ ?_
      · rintro a ⟨turn, j, hbreaks, hfails⟩
        have hall := hwrites.fails hfails
        rw [← hall.iteration] at hvisits
        refine ⟨turn, _, .later hvisits hbreaks, ?_⟩
        simpa using hall
      · rintro s'' ⟨j, hsweeps, hwrites'⟩
        rw [hwrites.iteration] at hsweeps
        refine ⟨_, .cons hvisits hsweeps, ?_⟩
        simpa using hwrites.trans hwrites'

/-- One iteration writes its part of the journal. -/
theorem iterate_writes (ws : List Window) (i : UInt32) :
    Yields (s.iterate program.journaled settings g ws i)
      (fun a => ∃ turn j, turn.iteration = i ∧ turn.verdict = .error a.fault ∧
        Breaks settings turn ws j ∧ a.state.2 = s.state.2 ++ .beforeIteration i :: j)
      (fun out => ∃ j, out.1.iteration = i ∧ Completes settings ws out.1 j ∧
        out.2.state.2 = s.state.2 ++ j) := by
  have hbegin : (s.enter i).Writes ((s.enter i).run program.journaled.beforeIteration)
      [.beforeIteration i] := .run rfl
  rw [iterate_eq]
  refine Yields.bind ((foldlM_sweep_writes ws).mono ?_ fun _ h => h) ?_
  · rintro a ⟨turn, j, hbreaks, hfails⟩
    have hall := hbegin.fails hfails
    exact ⟨turn, j, hall.iteration, hall.verdict, hbreaks, hall.journal⟩
  · rintro s' ⟨j, hsweeps, hwrites⟩
    have hall := hbegin.trans hwrites
    have hend : s'.Writes (s'.run (program.journaled.afterIteration s'.summary))
        [.afterIteration s'.summary] := .run rfl
    have hiteration : s'.summary.iteration = i := hall.iteration
    have hhistory : Journal.history ([.beforeIteration i] ++ j) = j.history :=
      history_cons_of_none rfl
    refine ⟨_, hiteration, .intro (j := j) ?_ ?_ ?_, ?_⟩
    · rw [hbegin.iteration] at hsweeps
      rw [hiteration]
      exact hsweeps
    · rw [← hhistory]
      exact hall.visited.trans (Nat.zero_add _)
    · rw [← hhistory]
      exact hall.changed.trans (Nat.zero_add _)
    · rw [hiteration]
      exact (hall.trans hend).journal

/-- From some iteration on, a run writes what is missing of the grammar. -/
theorem runFrom_writes {ws : List Window} (left : Nat) {rounds : Array RoundSummary}
    {s : Stage (σ × Journal) V E} (h : Follows settings ws rounds s.state.2)
    (hleft : rounds.size + left = settings.maxIterations.toNat) :
    Yields (s.runFrom program.journaled settings g ws rounds (UInt32.ofNat rounds.size) left)
      (fun a => Interrupted settings ws a.fault a.state.2)
      (fun run => Follows settings ws run.report.rounds run.state.2) := by
  refine runFrom_yields (I := fun rounds s => Follows settings ws rounds s.state.2) ?_
    (fun _ h => h) left hleft h
  intro rounds s hround h
  have hword : (UInt32.ofNat rounds.size).toNat = rounds.size :=
    UInt32.toNat_ofNat_of_lt' (Nat.lt_trans hround settings.maxIterations.toNat_lt)
  refine (iterate_writes ws (UInt32.ofNat rounds.size)).mono ?_ ?_
  · rintro a ⟨turn, j, hiteration, hverdict, hbreaks, hjournal⟩
    rw [hjournal, ← hiteration]
    exact .intro h (by rw [hiteration, hword]) hbreaks hverdict
  · rintro ⟨round, s'⟩ ⟨j, hiteration, hcompletes, hjournal⟩
    have hnext : Follows settings ws (rounds.push round) s'.state.2 := by
      rw [hjournal]
      exact .next h (by rw [hiteration, hword]) hcompletes
    exact ⟨fun _ _ => hnext, fun _ => hnext⟩

end

end Stage

/-! ## Chronicles -/

namespace Chronicle

open Journal

/-- The journal is one of a finished run, or of one that ended with the failure it reports. -/
def Orderly (settings : Settings) (ws : List Window) (c : Chronicle σ V E) : Prop :=
  match c.result with
  | .ok run => Follows settings ws run.report.rounds c.journal
  | .error stop => Interrupted settings ws stop.fault c.journal

/-- A failing update is the last callback, and the run reports its fault. -/
theorem Orderly.getLast?_eq_of_error {c : Chronicle σ V E} {settings : Settings}
    {ws : List Window} {turn : Turn} {fault : Fault} (h : c.Orderly settings ws)
    (hmem : .update turn ∈ c.journal) (hverdict : turn.verdict = .error fault) :
    c.journal.getLast? = some (.update turn) ∧
      ∃ stop, c.result = .error stop ∧ stop.fault = fault := by
  have hturn : turn ∈ c.journal.history := List.mem_filterMap.2 ⟨_, hmem, rfl⟩
  have hfailed : ¬ turn.Succeeds := by
    rintro ⟨activity, hok⟩
    cases hok.symm.trans hverdict
  unfold Orderly at h
  cases hresult : c.result with
  | ok run =>
    rw [hresult] at h
    exact absurd (h.succeeds turn hturn) hfailed
  | error stop =>
    rw [hresult] at h
    obtain ⟨last, earlier, hjournal, hsucceeds, hlast⟩ := h.split
    rw [hjournal, history_append, List.mem_append] at hturn
    rcases hturn with hearlier | hnow
    · exact absurd (hsucceeds turn hearlier) hfailed
    · obtain rfl : turn = last := List.mem_singleton.1 hnow
      refine ⟨by rw [hjournal, List.getLast?_concat], stop, rfl, ?_⟩
      exact Except.error.inj (hlast.symm.trans hverdict)

end Chronicle

namespace VertexProgram

open Journal

variable [Inhabited V] {program : VertexProgram σ V E} {settings : Settings} {state : σ}
  {graph : DataGraph V E}

theorem journaled_writes (program : VertexProgram σ V E) (settings : Settings) (state : σ)
    (graph : DataGraph V E) : Yields (program.journaled.run settings (state, []) graph)
    (fun a => Interrupted settings (windows graph.adjacency.vertexCount settings.intervalSize)
      a.fault a.state.2)
    (fun run => Follows settings (windows graph.adjacency.vertexCount settings.intervalSize)
      run.report.rounds run.state.2) :=
  Stage.runFrom_writes _ .start (Nat.zero_add _)

theorem orderly_journal : (program.chronicle settings state graph).Orderly settings
    (windows graph.adjacency.vertexCount settings.intervalSize) := by
  have hwrites := journaled_writes program settings state graph
  unfold chronicle
  cases hres : program.journaled.run settings (state, []) graph with
  | ok run => exact hwrites.of_eq_ok hres
  | error stop =>
    rw [hres] at hwrites
    exact hwrites

/-- **Every run calls back in order.** The journal of a finished run consists of completed
iterations, that of a failed one ends in the middle of an iteration with the failure; an iteration
in which a hook asks for the end is completed. The windows hold the vertices in ascending order. -/
theorem orderly_chronicle {c : Chronicle σ V E} (hn : graph.adjacency.vertexCount ≤ maxWord)
    (hc : program.chronicle settings state graph = c) :
    c.result = program.run settings state graph ∧
      c.Orderly settings (windows graph.adjacency.vertexCount settings.intervalSize) ∧
      (∀ turn fault, .update turn ∈ c.journal → turn.verdict = .error fault →
        c.journal.getLast? = some (.update turn) ∧
          ∃ stop, c.result = .error stop ∧ stop.fault = fault) ∧
      (∀ run, c.result = .ok run → ∀ wish ∈ program.wishes settings state graph,
        wish.uttered.toNat < run.report.rounds.size) ∧
      (windows graph.adjacency.vertexCount settings.intervalSize).flatMap Window.vertices =
        (List.range graph.adjacency.vertexCount).map UInt32.ofNat ∧
      ∀ w : Window, w.vertices.Pairwise (· < ·) ∧
        ∀ v, v ∈ w.vertices ↔ w.first ≤ v ∧ v ≤ w.last := by
  have hresult : c.result = program.run settings state graph := hc ▸ result_chronicle ..
  have horderly : c.Orderly settings
      (windows graph.adjacency.vertexCount settings.intervalSize) := by
    rw [← hc]
    exact orderly_journal
  refine ⟨hresult, horderly, fun turn fault => horderly.getLast?_eq_of_error, ?_,
    flatMap_vertices_windows (Nat.le_succ_of_le hn),
    fun w => ⟨Window.pairwise_vertices, fun v => Window.mem_vertices⟩⟩
  exact fun run hrun => (overheard_of_ok (hresult.symm.trans hrun)).2

/-- Every vertex changes in every iteration, and before the first window a hook asks for the end. In
iteration 0 vertex 2 fails, if there is one. -/
def hasty : Script.Source where
  rules := [{ actions := [.changed, .task .id false] }, { vertex := .only 2, actions := [.fail] }]
  hooks := [{ point := .beforeWindow, iteration := .only 0, start := .only 0, last := 0 }]

theorem orderly_chronicle_hasty : ∃ c c' : Chronicle Script.Log UInt32 UInt32,
    (hasty.program.chronicle { selective := true, intervalSize := 1 } #[]
        (.ofAdjacency (.ofEdges 2 #[])) = c ∧
      c.journal.length = 8 ∧ c.result.toOption.map (·.report.outcome) = some .halted ∧
      c.Orderly { selective := true, intervalSize := 1 } (windows 2 1)) ∧
    hasty.program.chronicle { selective := true, intervalSize := 1 } #[]
        (.ofAdjacency (.ofEdges 3 #[])) = c' ∧
      c'.journal.length = 9 ∧ c'.result.isOk = false ∧
      c'.Orderly { selective := true, intervalSize := 1 } (windows 3 1) := by
  refine ⟨_, _, ⟨rfl, ?_⟩, rfl, ?_⟩
  · obtain ⟨-, horderly, -⟩ := @orderly_chronicle _ _ _ _ hasty.program
      { selective := true, intervalSize := 1 } #[] (.ofAdjacency (.ofEdges 2 #[])) _ (by decide) rfl
    exact ⟨by decide +kernel, by decide +kernel, horderly⟩
  · obtain ⟨-, horderly, -⟩ := @orderly_chronicle _ _ _ _ hasty.program
      { selective := true, intervalSize := 1 } #[] (.ofAdjacency (.ofEdges 3 #[])) _ (by decide) rfl
    exact ⟨by decide +kernel, by decide +kernel, horderly⟩

end VertexProgram

end VertexSweep
