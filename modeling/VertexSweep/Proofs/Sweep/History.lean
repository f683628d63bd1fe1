import VertexSweep.Proofs.Sweep.Journal

/-!
# Histories

The updates of a run are its `History`. What concerns the turn of a vertex in one sweep is a list of
signals (`History.signals`): it is due when the sweep begins, an urgent request activates it, a
removal takes it out; the last signal before its turn decides. A history is `Faithful` up to some
vertex of some iteration if so far exactly those vertices were updated whose turn it was, in
ascending order. It stays so when a turn is rightly skipped (`History.Faithful.skip`), when one is
taken (`History.Faithful.append`), and when the next iteration begins (`History.Faithful.next`).
-/

namespace VertexSweep

/-- What an event says about the turn of a vertex in the current sweep. -/
inductive Signal where
  | activation
  | removal
deriving DecidableEq, Repr

namespace Signal

/-- Whether a vertex is due after signals, given whether it was due before. -/
def settle (due : Bool) (signals : List Signal) : Bool :=
  signals.foldl (fun _ signal => signal == .activation) due

variable {due : Bool} {signals signals' : List Signal}

theorem settle_append : settle due (signals ++ signals') = settle (settle due signals) signals' :=
  List.foldl_append

/-- The last signal decides. -/
theorem settle_eq_true_iff : settle false signals = true ↔ signals.getLast? = some .activation := by
  rcases List.eq_nil_or_concat signals with rfl | ⟨earlier, last, rfl⟩
  · simp [settle]
  · simp [settle]

end Signal

namespace Request

/-- What a request says about the turn of `v` in the current sweep, if it says anything. -/
def signal? (v : VertexId) : Request → Option Signal
  | .add w urgent => if w = v ∧ urgent = true then some .activation else none
  | .remove first last => if first ≤ v ∧ v ≤ last then some .removal else none

/-- Whether a request asks for a turn of `v`, urgently or not. -/
def asksFor (v : VertexId) : Request → Bool
  | .add w _ => w == v
  | .remove .. => false

end Request

/-! ## Histories -/

/-- The updates of a run in their order. -/
abbrev History := List Turn

def Callback.turn? : Callback → Option Turn
  | .update turn => some turn
  | _ => none

namespace Journal

def history (j : Journal) : History := j.filterMap Callback.turn?

variable {j : Journal}

theorem history_append_update {turn : Turn} :
    history (j ++ [.update turn]) = j.history ++ [turn] := by
  simp [history, Callback.turn?]

theorem history_append_of_none {entry : Callback} (h : entry.turn? = none) :
    history (j ++ [entry]) = j.history := by
  simp [history, h]

end Journal

namespace History

/-- The updates of iteration `i`. -/
def during (h : History) (i : Nat) : History := h.filter (·.iteration.toNat == i)

/-- The vertices that were updated in iteration `i`, in the order of their updates. -/
def updated (h : History) (i : Nat) : List VertexId := (h.during i).map (·.vertex)

/-- Whether `v` is due when an iteration begins: in iteration 0 everyone is, and later those for
whom an update of the iteration before has asked. -/
def startsDue (h : History) (v : VertexId) : Nat → Bool
  | 0 => true
  | i + 1 => (h.during i).any fun turn => turn.requests.any (·.asksFor v)

/-- The signals for `v` that come before its turn in iteration `i`. As a sweep ascends, those that
are requests come from updates of smaller vertices. -/
def signals (h : History) (i : Nat) (v : VertexId) : List Signal :=
  (if h.startsDue v i then [.activation] else []) ++
    (((h.during i).filter (·.vertex < v)).flatMap (·.requests)).filterMap (Request.signal? v)

/-- Whether `v` ought to be updated in iteration `i`. In a selective run the largest word is never
due. -/
def HasTurn (settings : Settings) (h : History) (i : Nat) (v : VertexId) : Prop :=
  settings.selective = true →
    v.toNat < maxWord ∧ (h.signals i v).getLast? = some .activation

/-- The summaries of the rounds count the updates of their iterations. -/
def CountedBy (h : History) (rounds : Array RoundSummary) : Prop :=
  ∀ i round, rounds[i]? = some round → round.visited = (h.updated i).length

/-- In the iterations before `i`, and for the vertices below `k` in iteration `i` itself, exactly
those that ought to be updated were updated, in ascending order. -/
structure Faithful (settings : Settings) (n : Nat) (h : History) (i k : Nat) : Prop where
  before : ∀ turn ∈ h, turn.vertex.toNat < n ∧
    (turn.iteration.toNat < i ∨ turn.iteration.toNat = i ∧ turn.vertex.toNat < k)
  ascending : ∀ j, (h.updated j).Pairwise (· < ·)
  mem_updated_iff : ∀ j (v : VertexId), v.toNat < n → j < i ∨ j = i ∧ v.toNat < k →
    (v ∈ h.updated j ↔ h.HasTurn settings j v)

variable {settings : Settings} {n i j k : Nat} {h : History} {turn : Turn} {v : VertexId}

theorem mem_updated : v ∈ h.updated i ↔ ∃ turn ∈ h, turn.iteration.toNat = i ∧ turn.vertex = v := by
  simp [updated, during, and_assoc]

theorem during_append :
    during (h ++ [turn]) j = h.during j ++ if turn.iteration.toNat = j then [turn] else [] := by
  by_cases hj : turn.iteration.toNat = j <;> simp [during, hj]

theorem updated_append : updated (h ++ [turn]) j =
    h.updated j ++ if turn.iteration.toNat = j then [turn.vertex] else [] := by
  rw [updated, during_append, List.map_append]
  split <;> rfl

/-- An update asks for turns in the next iteration. -/
theorem startsDue_append_succ (hj : turn.iteration.toNat = j) :
    startsDue (h ++ [turn]) v (j + 1) =
      (h.startsDue v (j + 1) || turn.requests.any (·.asksFor v)) := by
  simp [startsDue, during_append, hj]

/-- An update asks for no turn in its own iteration or in an earlier one. -/
theorem startsDue_append (hj : j ≤ turn.iteration.toNat) :
    startsDue (h ++ [turn]) v j = h.startsDue v j := by
  cases j with
  | zero => rfl
  | succ j =>
    have hne : turn.iteration.toNat ≠ j := by omega
    simp [startsDue, during_append, hne]

/-- A request, urgent or not, makes its vertex due in the next iteration. -/
theorem startsDue_of_mem {urgent : Bool} (hturn : turn ∈ h) (hadd : .add v urgent ∈ turn.requests) :
    h.startsDue v (turn.iteration.toNat + 1) = true := by
  have hduring : turn ∈ h.during turn.iteration.toNat := by simp [during, hturn]
  exact List.any_eq_true.2 ⟨turn, hduring, List.any_eq_true.2 ⟨_, hadd, beq_self_eq_true v⟩⟩

/-- A vertex that starts due and is not taken out for good is activated in the end. -/
theorem getLast?_signals (hdue : h.startsDue v i = true)
    (hkept : (h.signals i v).getLast? ≠ some .removal) :
    (h.signals i v).getLast? = some .activation := by
  have hsome : h.signals i v ≠ [] := by simp [signals, hdue]
  rw [List.getLast?_eq_some_getLast hsome] at hkept ⊢
  cases hlast : (h.signals i v).getLast hsome with
  | activation => rfl
  | removal => exact absurd (congrArg some hlast) hkept

/-- An update sends signals to the larger vertices of its own iteration. -/
theorem signals_append (hj : j ≤ turn.iteration.toNat) : signals (h ++ [turn]) j v =
    h.signals j v ++ if turn.iteration.toNat = j ∧ turn.vertex < v then
      turn.requests.filterMap (Request.signal? v) else [] := by
  unfold signals
  rw [startsDue_append hj, during_append]
  by_cases hsame : turn.iteration.toNat = j
  · by_cases hlt : turn.vertex < v <;> simp [hsame, hlt]
  · simp [hsame]

theorem hasTurn_append (hj : j ≤ turn.iteration.toNat)
    (hlt : ¬ (turn.iteration.toNat = j ∧ turn.vertex < v)) :
    HasTurn settings (h ++ [turn]) j v ↔ h.HasTurn settings j v := by
  rw [HasTurn, HasTurn, signals_append hj, if_neg hlt, List.append_nil]

theorem CountedBy.push {rounds : Array RoundSummary} {round : RoundSummary}
    (hcounted : h.CountedBy rounds) (hround : round.visited = (h.updated rounds.size).length) :
    h.CountedBy (rounds.push round) := by
  intro i other hi
  rw [Array.getElem?_push] at hi
  split at hi
  · cases hi
    rename_i heq
    rw [heq, hround]
  · exact hcounted i other hi

/-- At the beginning of an iteration a vertex is due or not, and has no other signal. -/
theorem settle_signals_of_before (hbefore : ∀ turn ∈ h, turn.iteration.toNat < i) :
    Signal.settle false (h.signals i v) = h.startsDue v i := by
  have hnone : h.during i = [] := by
    refine List.filter_eq_nil_iff.2 fun turn hturn heq => ?_
    have hlt := hbefore turn hturn
    rw [beq_iff_eq] at heq
    omega
  rw [signals, hnone]
  cases h.startsDue v i <;> rfl

namespace Faithful

theorem iteration_lt (hf : h.Faithful settings n i 0) : ∀ turn ∈ h, turn.iteration.toNat < i := by
  intro turn hturn
  rcases (hf.before turn hturn).2 with hlt | ⟨-, hnone⟩
  · exact hlt
  · exact absurd hnone (Nat.not_lt_zero _)

theorem updated_eq_nil (hf : h.Faithful settings n i 0) : h.updated i = [] := by
  refine List.eq_nil_iff_forall_not_mem.2 fun v hv => ?_
  obtain ⟨turn, hturn, heq, -⟩ := mem_updated.1 hv
  have hlt := hf.iteration_lt turn hturn
  omega

theorem lt_of_mem_updated (hf : h.Faithful settings n i k) (hv : v ∈ h.updated i) :
    v.toNat < k := by
  obtain ⟨turn, hturn, heq, rfl⟩ := mem_updated.1 hv
  rcases (hf.before turn hturn).2 with hlt | ⟨-, hlt⟩
  · omega
  · exact hlt

/-- In all, those were updated whose turn came and ought to be taken. -/
theorem mem_updated_iff_hasTurn (hf : h.Faithful settings n i k) : v ∈ h.updated j ↔
    v.toNat < n ∧ (j < i ∨ j = i ∧ v.toNat < k) ∧ h.HasTurn settings j v := by
  constructor
  · intro hv
    obtain ⟨turn, hturn, rfl, rfl⟩ := mem_updated.1 hv
    obtain ⟨hn, hbefore⟩ := hf.before turn hturn
    exact ⟨hn, hbefore, (hf.mem_updated_iff _ _ hn hbefore).1 hv⟩
  · rintro ⟨hn, hbefore, hv⟩
    exact (hf.mem_updated_iff j v hn hbefore).2 hv

theorem empty : Faithful settings n [] 0 0 where
  before _ hturn := absurd hturn List.not_mem_nil
  ascending _ := .nil
  mem_updated_iff j v _ hj := by omega

/-- A vertex that ought not to be updated is rightly skipped. -/
theorem skip (hf : h.Faithful settings n i v.toNat) (hturn : ¬ h.HasTurn settings i v) :
    h.Faithful settings n i (v.toNat + 1) where
  before turn hmem := by
    refine (hf.before turn hmem).imp_right (Or.imp_right fun hlt => ⟨hlt.1, ?_⟩)
    omega
  ascending := hf.ascending
  mem_updated_iff j w hw hj := by
    by_cases hsame : j = i ∧ w = v
    · obtain ⟨rfl, rfl⟩ := hsame
      exact iff_of_false (fun hmem => Nat.lt_irrefl _ (hf.lt_of_mem_updated hmem)) hturn
    · refine hf.mem_updated_iff j w hw (hj.imp_right fun hlt => ⟨hlt.1, ?_⟩)
      have hne : w.toNat ≠ v.toNat := fun heq => hsame ⟨hlt.1, UInt32.toNat_inj.1 heq⟩
      omega

/-- A vertex that ought to be updated is rightly updated. -/
theorem append (hf : h.Faithful settings n turn.iteration.toNat turn.vertex.toNat)
    (hn : turn.vertex.toNat < n) (hturn : h.HasTurn settings turn.iteration.toNat turn.vertex) :
    Faithful settings n (h ++ [turn]) turn.iteration.toNat (turn.vertex.toNat + 1) where
  before other hmem := by
    rcases List.mem_append.1 hmem with hold | hnew
    · refine (hf.before other hold).imp_right (Or.imp_right fun hlt => ⟨hlt.1, ?_⟩)
      omega
    · rw [List.mem_singleton.1 hnew]
      exact ⟨hn, .inr ⟨rfl, Nat.lt_succ_self _⟩⟩
  ascending j := by
    rw [updated_append]
    split
    · rename_i hj
      subst hj
      refine List.pairwise_append.2 ⟨hf.ascending _, List.pairwise_singleton .., ?_⟩
      intro v hv w hw
      rw [List.mem_singleton.1 hw]
      exact UInt32.lt_iff_toNat_lt.2 (hf.lt_of_mem_updated hv)
    · rw [List.append_nil]
      exact hf.ascending j
  mem_updated_iff j w hw hj := by
    have hle : j ≤ turn.iteration.toNat := by omega
    have hlate : ¬ (turn.iteration.toNat = j ∧ turn.vertex < w) := by
      rw [UInt32.lt_iff_toNat_lt]
      omega
    rw [hasTurn_append hle hlate, updated_append, List.mem_append]
    by_cases hsame : turn.iteration.toNat = j ∧ w = turn.vertex
    · obtain ⟨rfl, rfl⟩ := hsame
      exact iff_of_true (.inr (by simp)) hturn
    · have hold : w ∉ (if turn.iteration.toNat = j then [turn.vertex] else []) := by
        split
        · rename_i heq
          exact fun hmem => hsame ⟨heq, List.mem_singleton.1 hmem⟩
        · exact List.not_mem_nil
      rw [or_iff_left hold]
      refine hf.mem_updated_iff j w hw (hj.imp_right fun hlt => ⟨hlt.1, ?_⟩)
      have hne : w.toNat ≠ turn.vertex.toNat :=
        fun heq => hsame ⟨hlt.1.symm, UInt32.toNat_inj.1 heq⟩
      omega

/-- When everyone has had a turn the next iteration begins. -/
theorem next (hf : h.Faithful settings n i n) : h.Faithful settings n (i + 1) 0 where
  before turn hmem := ⟨(hf.before turn hmem).1, .inl (by have := (hf.before turn hmem).2; omega)⟩
  ascending := hf.ascending
  mem_updated_iff j v hv hj := hf.mem_updated_iff j v hv (by omega)

end Faithful

end History

end VertexSweep
