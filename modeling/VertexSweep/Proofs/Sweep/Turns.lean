import VertexSweep.Proofs.Sweep.History
import VertexSweep.Script.Program

/-!
# Who gets a turn

The schedule holds what the signals of a history say (`Tasks.isDue_grantAll_eq`), so every turn
keeps the record of a run (`Stage.Recording.visit`) and every run is faithful to its end
(`VertexProgram.journaled_yields`). In a selective run, then, no request is lost and nothing but a
request leads to an update (`VertexProgram.updated_iff_activation`).
-/

namespace VertexSweep

/-! ## The schedule follows the signals -/

namespace Tasks

variable {t : Tasks} {w : VertexId} {r : Request} {requests : Array Request}

/-- A vertex beyond the bound is never due, and otherwise a request counts as its signal says. -/
theorem isDue_grant_eq (hw : t.isDue w = true → w.toNat < t.bound) : (t.grant r).isDue w =
    (decide (w.toNat < t.bound) && Signal.settle (t.isDue w) (r.signal? w).toList) := by
  have hidle : (decide (w.toNat < t.bound) && t.isDue w) = t.isDue w := by
    cases hdue : t.isDue w with
    | false => simp
    | true => simp [hw hdue]
  cases r with
  | add v urgent =>
    rw [grant, isDue_add, Request.signal?]
    by_cases hsignal : v = w ∧ urgent = true
    · obtain ⟨rfl, rfl⟩ := hsignal
      have hmore : (decide (v.toNat < t.bound) && t.isDue v || decide (v.toNat < t.bound)) =
          decide (v.toNat < t.bound) := by
        cases decide (v.toNat < t.bound) <;> simp
      rw [hidle] at hmore
      simpa [Signal.settle] using hmore
    · have hnone : (w == v && urgent) = false := by
        rw [← Bool.not_eq_true, Bool.and_eq_true, beq_iff_eq]
        exact fun heq => hsignal ⟨heq.1.symm, heq.2⟩
      simp [hsignal, hnone, hidle, Signal.settle]
  | remove first last =>
    rw [grant, isDue_remove, Request.signal?]
    by_cases hrange : first ≤ w ∧ w ≤ last
    · simp [hrange, Signal.settle]
    · rw [if_neg hrange, decide_eq_false hrange]
      exact hidle.symm

/-- After requests a vertex is due as the last signal among them says. -/
theorem isDue_grantAll_eq (hw : t.isDue w = true → w.toNat < t.bound) :
    (t.grantAll requests).isDue w = (decide (w.toNat < t.bound) &&
      Signal.settle (t.isDue w) (requests.toList.filterMap (Request.signal? w))) := by
  rw [grantAll_eq]
  generalize requests.toList = rs
  induction rs generalizing t with
  | nil =>
    cases hdue : t.isDue w with
    | false => simp [hdue, Signal.settle]
    | true => simp [hdue, hw hdue, Signal.settle]
  | cons r rs ih =>
    have hfirst := @isDue_grant_eq t w r hw
    have hkeep : (t.grant r).isDue w = true → w.toNat < (t.grant r).bound := by
      intro hdue
      rw [hfirst, Bool.and_eq_true, decide_eq_true_eq] at hdue
      rw [bound_grant]
      exact hdue.1
    have hsplit : (r :: rs).filterMap (Request.signal? w) =
        (r.signal? w).toList ++ rs.filterMap (Request.signal? w) := by
      rw [List.filterMap_cons]
      cases r.signal? w <;> rfl
    rw [List.foldl_cons, ih hkeep, bound_grant, hfirst, hsplit, Signal.settle_append]
    cases hbound : decide (w.toNat < t.bound) <;> simp

theorem isRequested_grantAll_eq : (t.grantAll requests).isRequested w =
    (t.isRequested w || (decide (w.toNat < t.bound) && requests.toList.any (·.asksFor w))) := by
  rw [grantAll_eq]
  generalize requests.toList = rs
  induction rs generalizing t with
  | nil => simp
  | cons r rs ih =>
    rw [List.foldl_cons, ih, bound_grant]
    cases r with
    | remove first last => rfl
    | add v urgent =>
      rw [grant, isRequested_add]
      by_cases heq : v = w
      · subst heq
        cases t.isRequested v <;> cases decide (v.toNat < t.bound) <;> simp [Request.asksFor]
      · have hne : (w == v) = false := beq_false_of_ne (Ne.symm heq)
        have hne' : (v == w) = false := beq_false_of_ne heq
        simp [Request.asksFor, hne, hne']

end Tasks

/-! ## A run is faithful -/

variable {σ V E : Type} {program : VertexProgram σ V E} {settings : Settings} {g : Adjacency}

namespace Stage

variable {rounds : Array RoundSummary} {k : Nat} {s : Stage (σ × Journal) V E} {v : VertexId}

def history (s : Stage (σ × Journal) V E) : History := s.state.2.history

theorem history_run_noting {hook : Hook σ} {entry : Callback} (h : entry.turn? = none) :
    (s.run (hook.noting entry)).history = s.history :=
  Journal.history_append_of_none h

/-- Before an iteration: the history is faithful, and the schedule holds who is due. -/
structure Recorded (settings : Settings) (g : Adjacency) (rounds : Array RoundSummary)
    (s : Stage (σ × Journal) V E) : Prop where
  faithful : s.history.Faithful settings g.vertexCount rounds.size 0
  counted : s.history.CountedBy rounds
  isDue : settings.selective = true → ∀ v, s.tasks.isDue v =
    (decide (v.toNat < min g.vertexCount maxWord) && s.history.startsDue v rounds.size)
  unrequested : settings.selective = true → ∀ v, s.tasks.isRequested v = false

/-- During an iteration, when the vertices below `k` have had their turn: who is still to come is
due as the signals say, and the requests for the next iteration are kept. -/
structure Recording (settings : Settings) (g : Adjacency) (rounds : Array RoundSummary) (k : Nat)
    (s : Stage (σ × Journal) V E) : Prop where
  faithful : s.history.Faithful settings g.vertexCount rounds.size k
  counted : s.history.CountedBy rounds
  visited : s.visited = (s.history.updated rounds.size).length
  isDue : settings.selective = true → ∀ v : VertexId, k ≤ v.toNat → s.tasks.isDue v =
    (decide (v.toNat < min g.vertexCount maxWord) &&
      Signal.settle false (s.history.signals rounds.size v))
  isRequested : settings.selective = true → ∀ v, s.tasks.isRequested v =
    (decide (v.toNat < min g.vertexCount maxWord) && s.history.startsDue v (rounds.size + 1))

/-- The last update failed, and the history is faithful up to it. -/
def Broken (settings : Settings) (g : Adjacency) (a : Aborted (σ × Journal) V E) : Prop :=
  ∃ turn, a.state.2.history.getLast? = some turn ∧ turn.verdict = .error a.fault ∧
    a.state.2.history.Faithful settings g.vertexCount turn.iteration.toNat (turn.vertex.toNat + 1)

theorem Recorded.start (values : Array V) (slots : Array E) (state : σ) :
    Recorded settings g #[] {
      state := (state, []), values := values, slots := slots,
      tasks := (Tasks.ofVertexCount g.vertexCount).addAll } where
  faithful := .empty
  counted i round h := by simp at h
  isDue _ v := by
    simp [Tasks.isDue, Tasks.addAll, Tasks.ofVertexCount, History.startsDue]
  unrequested _ v := by simp [Tasks.isRequested, Tasks.addAll, Tasks.ofVertexCount]

theorem Recorded.enter (h : s.Recorded settings g rounds) (iteration : UInt32) :
    (s.enter iteration).Recording settings g rounds 0 where
  faithful := h.faithful
  counted := h.counted
  visited := by
    show 0 = (s.history.updated rounds.size).length
    rw [h.faithful.updated_eq_nil]
    rfl
  isDue hsel v _ := by
    show s.tasks.isDue v = (_ && Signal.settle false (s.history.signals rounds.size v))
    rw [History.settle_signals_of_before h.faithful.iteration_lt]
    exact h.isDue hsel v
  isRequested hsel v := by
    have hnobody : s.history.startsDue v (rounds.size + 1) = false := by
      have hnone := h.faithful.updated_eq_nil
      rw [History.updated, List.map_eq_nil_iff] at hnone
      simp [History.startsDue, hnone]
    show s.tasks.isRequested v = (_ && s.history.startsDue v (rounds.size + 1))
    rw [hnobody, Bool.and_false]
    exact h.unrequested hsel v

/-- Running a hook leaves the history and the schedule as they are. -/
theorem Recording.noting (h : s.Recording settings g rounds k) {hook : Hook σ} {entry : Callback}
    (hentry : entry.turn? = none) : (s.run (hook.noting entry)).Recording settings g rounds k := by
  have hhistory : (s.run (hook.noting entry)).history = s.history := history_run_noting hentry
  constructor
  · rw [hhistory]
    exact h.faithful
  · rw [hhistory]
    exact h.counted
  · rw [hhistory]
    exact h.visited
  · rw [hhistory]
    exact h.isDue
  · rw [hhistory]
    exact h.isRequested

/-- Whether `v` ought to be updated is what the schedule says when its turn comes. -/
theorem Recording.hasTurn_iff (h : s.Recording settings g rounds v.toNat)
    (hv : v.toNat < g.vertexCount) : s.history.HasTurn settings rounds.size v ↔
      (settings.selective = true → s.tasks.isDue v = true) := by
  refine forall_congr' fun hsel => ?_
  rw [h.isDue hsel v (Nat.le_refl _), Bool.and_eq_true, decide_eq_true_eq,
    Signal.settle_eq_true_iff, Nat.lt_min, and_iff_right hv]

theorem Recording.skip (h : s.Recording settings g rounds v.toNat) (hv : v.toNat < g.vertexCount)
    (hsel : settings.selective = true) (hdue : s.tasks.isDue v = false) :
    s.Recording settings g rounds (v.toNat + 1) where
  faithful := h.faithful.skip fun hturn => by
    rw [(h.hasTurn_iff hv).1 hturn hsel] at hdue
    cases hdue
  counted := h.counted
  visited := h.visited
  isDue hsel w hw := h.isDue hsel w (by omega)
  isRequested := h.isRequested

theorem history_close : (s.close program.journaled).history = s.history :=
  history_run_noting rfl

theorem Recording.counted_push (h : s.Recording settings g rounds g.vertexCount) :
    (s.close program.journaled).history.CountedBy (rounds.push s.summary) := by
  rw [history_close]
  exact h.counted.push h.visited

theorem Recording.faithful_close (h : s.Recording settings g rounds g.vertexCount) :
    (s.close program.journaled).history.Faithful settings g.vertexCount
      (rounds.push s.summary).size 0 := by
  rw [history_close, Array.size_push]
  exact h.faithful.next

/-- The end of an iteration makes due whoever was requested. -/
theorem Recording.close (h : s.Recording settings g rounds g.vertexCount) :
    (s.close program.journaled).Recorded settings g (rounds.push s.summary) where
  faithful := h.faithful_close
  counted := h.counted_push
  isDue hsel v := by
    rw [history_close, Array.size_push]
    exact h.isRequested hsel v
  unrequested _ _ := Tasks.isRequested_advance

variable [Inhabited V]

/-- The turn that `v` takes if it is updated now. -/
def turnOf (program : VertexProgram σ V E) (settings : Settings) (g : Adjacency)
    (s : Stage (σ × Journal) V E) (v : VertexId) : Turn where
  iteration := s.control.iteration
  vertex := v
  requests := (s.updateOf program.journaled settings g v).requests.toList
  verdict := (s.updateOf program.journaled settings g v).verdict

theorem history_updateOf : (s.updateOf program.journaled settings g v).state.2.history =
    s.history ++ [s.turnOf program settings g v] :=
  Journal.history_append_update

/-- The history stays faithful when `v` is updated, whether or not the update fails. -/
theorem Recording.faithful_update (h : s.Recording settings g rounds v.toNat)
    (hv : v.toNat < g.vertexCount) (hiteration : s.control.iteration.toNat = rounds.size)
    (hdue : settings.selective = true → s.tasks.isDue v = true) :
    History.Faithful settings g.vertexCount (s.history ++ [s.turnOf program settings g v])
      rounds.size (v.toNat + 1) := by
  have happend := @History.Faithful.append settings g.vertexCount s.history
    (s.turnOf program settings g v)
  simp only [turnOf, hiteration] at happend
  exact happend h.faithful hv ((h.hasTurn_iff hv).2 hdue)

theorem Recording.update (h : s.Recording settings g rounds v.toNat)
    (hv : v.toNat < g.vertexCount) (hiteration : s.control.iteration.toNat = rounds.size)
    (hbound : s.tasks.bound = min g.vertexCount maxWord) {activity : Activity}
    (hdue : settings.selective = true → s.tasks.isDue v = true) :
    (s.updated settings v (s.updateOf program.journaled settings g v) activity).Recording settings
      g rounds (v.toNat + 1) := by
  have hhistory : (s.updated settings v (s.updateOf program.journaled settings g v)
      activity).history = s.history ++ [s.turnOf program settings g v] := history_updateOf
  have hnow : (s.turnOf program settings g v).iteration.toNat = rounds.size := hiteration
  refine ⟨?faithful, fun i round hround => ?counted, ?visited, fun hsel w hw => ?isDue,
    fun hsel w => ?isRequested⟩
  case faithful =>
    rw [hhistory]
    exact h.faithful_update hv hiteration hdue
  case counted =>
    have hi : i < rounds.size := (Array.getElem?_eq_some_iff.1 hround).1
    rw [hhistory, History.updated_append, if_neg (by omega), List.append_nil]
    exact h.counted i round hround
  case visited =>
    rw [hhistory, History.updated_append, if_pos hnow, List.length_append, ← h.visited]
    rfl
  case isDue =>
    -- Taking `v` off concerns nobody later, and what its update requests counts as signals.
    have hne : w ≠ v := by
      rintro rfl
      omega
    have hlater : (s.turnOf program settings g v).vertex < w := UInt32.lt_iff_toNat_lt.2 hw
    have hbefore : (s.tasks.take v).2.isDue w =
        (decide (w.toNat < min g.vertexCount maxWord) &&
          Signal.settle false (s.history.signals rounds.size w)) := by
      rw [Tasks.isDue_take hne]
      exact h.isDue hsel w (by omega)
    have hgrant := @Tasks.isDue_grantAll_eq (s.tasks.take v).2 w
      (s.updateOf program.journaled settings g v).requests (by
        rw [hbefore, Tasks.bound_take, hbound, Bool.and_eq_true, decide_eq_true_eq]
        exact And.left)
    rw [hhistory, History.signals_append (Nat.le_of_eq hnow.symm), if_pos ⟨hnow, hlater⟩,
      Signal.settle_append]
    simp only [Stage.updated, if_pos hsel]
    rw [hgrant, hbefore, Tasks.bound_take, hbound]
    cases decide (w.toNat < min g.vertexCount maxWord) <;> rfl
  case isRequested =>
    rw [hhistory, History.startsDue_append_succ hnow]
    simp only [Stage.updated, if_pos hsel]
    rw [Tasks.isRequested_grantAll_eq, Tasks.isRequested_take, h.isRequested hsel w,
      Tasks.bound_take, hbound, Bool.and_or_distrib_left]
    rfl

/-- One turn keeps the record, and a failure is the last thing in it. -/
theorem Recording.visit (h : s.Recording settings g rounds v.toNat) (hv : v.toNat < g.vertexCount)
    (hiteration : s.control.iteration.toNat = rounds.size)
    (hbound : s.tasks.bound = min g.vertexCount maxWord) :
    Yields (s.visit program.journaled settings g v) (Broken settings g)
      (Recording settings g rounds (v.toNat + 1)) := by
  rw [visit_eq]
  by_cases hskip : (settings.selective && !s.tasks.isDue v) = true
  · obtain ⟨hsel, hdue⟩ : settings.selective = true ∧ s.tasks.isDue v = false := by
      simpa using hskip
    rw [if_pos hskip]
    exact h.skip hv hsel hdue
  · have hdue : settings.selective = true → s.tasks.isDue v = true := by simpa using hskip
    rw [if_neg hskip]
    cases hverdict : (s.updateOf program.journaled settings g v).verdict with
    | ok activity => exact h.update hv hiteration hbound hdue
    | error fault =>
      refine ⟨s.turnOf program settings g v, ?_, hverdict, ?_⟩
      · show (s.updateOf program.journaled settings g v).state.2.history.getLast? = _
        rw [history_updateOf, List.getLast?_concat]
      · show History.Faithful _ _ (s.updateOf program.journaled settings g v).state.2.history _ _
        rw [history_updateOf]
        show History.Faithful _ _ _ s.control.iteration.toNat _
        rw [hiteration]
        exact h.faithful_update hv hiteration hdue

/-- What the journal of a run records while it goes on. -/
def recordInvariant (program : VertexProgram σ V E) (settings : Settings) (g : Adjacency)
    (hn : g.vertexCount ≤ 4294967296) :
    RunInvariant program.journaled settings g (Broken settings g) where
  between rounds s := s.Recorded settings g rounds
  during rounds k s := s.Recording settings g rounds k
  begins _ h := (h.enter _).noting rfl
  entersWindow _ h := h.noting rfl
  leavesWindow _ h := h.noting rfl
  visits {rounds k s} hround hk hs h := by
    have hiteration := hs.toNat_iteration (Nat.lt_trans hround settings.maxIterations.toNat_lt)
    exact Stage.visit_ofNat hn hk h fun v hv h => Recording.visit h hv hiteration hs.bound
  ends _ _ h _ := h.close

end Stage

/-! ## Whole runs -/

namespace Chronicle

def history (c : Chronicle σ V E) : History := c.journal.history

/-- Whether the run carried out iteration `i` to its end. -/
def Completes (c : Chronicle σ V E) (i : Nat) : Prop :=
  match c.result with
  | .ok run => i < run.report.rounds.size
  | .error _ => ∃ turn, c.history.getLast? = some turn ∧ i < turn.iteration.toNat

/-- Whether the run came to the point where `v` could be updated in iteration `i`. Unless it failed
before, it did; and a run that fails ends with the update that failed. -/
def Reaches (c : Chronicle σ V E) (i : Nat) (v : VertexId) : Prop :=
  c.Completes i ∨
    ∃ turn, c.history.getLast? = some turn ∧ turn.iteration.toNat = i ∧ v ≤ turn.vertex

/-- The history of a run on `n` vertices is what it ought to be. -/
structure Faithful (settings : Settings) (n : Nat) (c : Chronicle σ V E) : Prop where
  ascending : ∀ i, (c.history.updated i).Pairwise (· < ·)
  mem_updated_iff : ∀ i v, v ∈ c.history.updated i ↔
    v.toNat < n ∧ c.Reaches i v ∧ c.history.HasTurn settings i v
  counted : ∀ run, c.result = .ok run → c.history.CountedBy run.report.rounds
  failure : ∀ stop, c.result = .error stop →
    ∃ turn, c.history.getLast? = some turn ∧ turn.verdict = .error stop.fault

theorem Faithful.of_ok {run : Finished σ V E} {j : Journal} {n : Nat}
    (h : j.history.Faithful settings n run.report.rounds.size 0)
    (hcounted : j.history.CountedBy run.report.rounds) :
    Faithful settings n ⟨.ok run, j⟩ where
  ascending := h.ascending
  mem_updated_iff i v := by
    refine h.mem_updated_iff_hasTurn.trans (and_congr_right fun _ => and_congr_left fun _ => ?_)
    constructor
    · rintro (hlt | ⟨-, hnone⟩)
      · exact .inl hlt
      · cases hnone
    · rintro (hlt | ⟨turn, hlast, rfl, -⟩)
      · exact .inl hlt
      · exact .inl (h.iteration_lt turn (List.mem_of_getLast? hlast))
  counted _ heq := by
    cases heq
    exact hcounted
  failure _ heq := by cases heq

theorem Faithful.of_error {stop : Aborted σ V E} {j : Journal} {n : Nat} {turn : Turn}
    (hlast : j.history.getLast? = some turn) (hverdict : turn.verdict = .error stop.fault)
    (h : j.history.Faithful settings n turn.iteration.toNat (turn.vertex.toNat + 1)) :
    Faithful settings n ⟨.error stop, j⟩ where
  ascending := h.ascending
  mem_updated_iff i v := by
    refine h.mem_updated_iff_hasTurn.trans (and_congr_right fun _ => and_congr_left fun _ => ?_)
    constructor
    · rintro (hlt | ⟨rfl, hle⟩)
      · exact .inl ⟨turn, hlast, hlt⟩
      · exact .inr ⟨turn, hlast, rfl, UInt32.le_iff_toNat_le.2 (Nat.le_of_lt_succ hle)⟩
    · rintro (⟨other, hother, hlt⟩ | ⟨other, hother, rfl, hle⟩)
      · cases hlast.symm.trans hother
        exact .inl hlt
      · cases hlast.symm.trans hother
        exact .inr ⟨rfl, Nat.lt_succ_of_le (UInt32.le_iff_toNat_le.1 hle)⟩
  counted _ heq := by cases heq
  failure _ heq := by
    cases heq
    exact ⟨turn, hlast, hverdict⟩

theorem Faithful.mem_updated_iff_activation {c : Chronicle σ V E} {n i : Nat} {v : VertexId}
    (h : c.Faithful settings n) (hselective : settings.selective = true) (hn : n ≤ maxWord) :
    v ∈ c.history.updated i ↔ v.toNat < n ∧ c.Reaches i v ∧
      (c.history.signals i v).getLast? = some .activation := by
  rw [h.mem_updated_iff]
  refine and_congr_right fun hv => and_congr_right fun _ => ?_
  constructor
  · intro hturn
    exact (hturn hselective).2
  · intro hlast _
    exact ⟨Nat.lt_of_lt_of_le hv hn, hlast⟩

end Chronicle

namespace VertexProgram

variable [Inhabited V] {graph : DataGraph V E} {state : σ}

theorem journaled_yields (hn : graph.adjacency.vertexCount ≤ 4294967296) :
    Yields (program.journaled.run settings (state, []) graph)
      (Stage.Broken settings graph.adjacency) fun run =>
        run.state.2.history.Faithful settings graph.adjacency.vertexCount
            run.report.rounds.size 0 ∧
          run.state.2.history.CountedBy run.report.rounds := by
  refine (Stage.recordInvariant program settings graph.adjacency hn).yields hn
    (.start graph.values graph.slots state) ?_ ?_
  · intro rounds s outcome _ _ h _
    exact ⟨h.faithful_close, h.counted_push⟩
  · intro rounds s _ h
    exact ⟨h.faithful, h.counted⟩

/-- Every run is faithful. -/
theorem chronicle_faithful (hn : graph.adjacency.vertexCount ≤ 4294967296) :
    (program.chronicle settings state graph).Faithful settings graph.adjacency.vertexCount := by
  have hrun : Yields (program.journaled.run settings (state, []) graph) _ _ := journaled_yields hn
  unfold chronicle
  cases hres : program.journaled.run settings (state, []) graph with
  | ok run =>
    rw [hres] at hrun
    obtain ⟨h, hcounted⟩ := hrun
    exact .of_ok h hcounted
  | error stop =>
    rw [hres] at hrun
    obtain ⟨turn, hlast, hverdict, h⟩ := hrun
    exact .of_error hlast hverdict h

/-- **In a selective run the last signal decides.** Where it has come so far, a vertex is updated
if and only if the last signal before its turn is an activation. So no request is lost: one that was
made in iteration `i`, urgent or not, leads to an update in iteration `i + 1`, if the run gets there
and nobody takes the vertex out in that iteration. -/
theorem updated_iff_activation {c : Chronicle σ V E} (hselective : settings.selective = true)
    (hn : graph.adjacency.vertexCount ≤ maxWord)
    (hc : program.chronicle settings state graph = c) :
    c.result = program.run settings state graph ∧
      (∀ stop, c.result = .error stop →
        ∃ turn, c.history.getLast? = some turn ∧ turn.verdict = .error stop.fault) ∧
      (∀ i, (c.history.updated i).Pairwise (· < ·)) ∧
      (∀ i v, v ∈ c.history.updated i ↔ v.toNat < graph.adjacency.vertexCount ∧ c.Reaches i v ∧
        (c.history.signals i v).getLast? = some .activation) ∧
      ∀ turn ∈ c.history, ∀ v urgent, .add v urgent ∈ turn.requests →
        v.toNat < graph.adjacency.vertexCount → c.Reaches (turn.iteration.toNat + 1) v →
        .removal ∉ c.history.signals (turn.iteration.toNat + 1) v →
        v ∈ c.history.updated (turn.iteration.toNat + 1) := by
  have hfaithful : c.Faithful settings graph.adjacency.vertexCount :=
    hc ▸ chronicle_faithful (Nat.le_succ_of_le hn)
  have hturn := fun i v => hfaithful.mem_updated_iff_activation hselective hn (i := i) (v := v)
  refine ⟨hc ▸ result_chronicle .., hfaithful.failure, hfaithful.ascending, hturn, ?_⟩
  intro turn hmem v urgent hadd hv hreach hkept
  have hdue := History.startsDue_of_mem hmem hadd
  have hlast := History.getLast?_signals hdue fun hremoved => hkept (List.mem_of_getLast? hremoved)
  exact (hturn _ v).2 ⟨hv, hreach, hlast⟩

/-- In iteration 1, vertex 0 activates the others and takes 2 and 3 out again, and then vertex 1
brings 3 back. In iteration 2 vertex 4 fails. -/
def tugOfWar : Script.Source where
  rules := [
    { iteration := .only 0, vertex := .only 0, actions := [.task (.literal 0) false] },
    { iteration := .only 1, vertex := .only 0, actions := [.changed,
      .task (.literal 1) true, .task (.literal 2) true, .task (.literal 3) true,
      .task (.literal 4) true, .untask (.literal 2) (.literal 3)] },
    { iteration := .only 1, vertex := .only 1, actions := [.task (.literal 3) true] },
    { iteration := .only 2, vertex := .only 4, actions := [.fail] }]

theorem updated_iff_activation_tugOfWar : ∃ c : Chronicle Script.Log UInt32 UInt32,
    tugOfWar.program.chronicle { selective := true, intervalSize := 2 } #[]
        (.ofAdjacency (.ofEdges 5 #[])) = c ∧
      (List.range 4).map c.history.updated = [[0, 1, 2, 3, 4], [0, 1, 3, 4], [1, 2, 3, 4], []] ∧
      c.history.signals 1 2 = [.activation, .removal] ∧
      c.history.signals 1 3 = [.activation, .removal, .activation] ∧
      c.history.signals 2 2 = [.activation] ∧
      c.result.isOk = false ∧
      (∀ stop, c.result = .error stop →
        ∃ turn, c.history.getLast? = some turn ∧ turn.verdict = .error stop.fault) ∧
      (∀ i, (c.history.updated i).Pairwise (· < ·)) ∧
      ∀ i v, v ∈ c.history.updated i ↔ v.toNat < 5 ∧ c.Reaches i v ∧
        (c.history.signals i v).getLast? = some .activation := by
  refine ⟨_, rfl, ?_⟩
  obtain ⟨-, hfailure, hascending, hupdated, -⟩ :=
    @updated_iff_activation _ _ _ tugOfWar.program { selective := true, intervalSize := 2 } _
      (.ofAdjacency (.ofEdges 5 #[])) #[] _ rfl (by decide) rfl
  exact ⟨by decide +kernel, by decide +kernel, by decide +kernel, by decide +kernel,
    by decide +kernel, hfailure, hascending, hupdated⟩

end VertexProgram

end VertexSweep
