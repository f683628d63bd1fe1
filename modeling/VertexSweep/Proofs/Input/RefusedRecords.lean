import VertexSweep.Input.Readers
import VertexSweep.Proofs.Text.Numbering

/-!
# Where records are refused

Edge lists, lists of labels and patterns are read record by record, up to the first record that is
refused. The reader keeps with a record the line on which the search for it began, and this line is
reported: it is the line of the record just if the line in front of the record is not skipped
(`refusals_located`). What is accepted and refused does not depend on the numbers of lines
(`Alike`).
-/

namespace VertexSweep.Input

open Records (Record dropMark separator unlines isSkipped IsLone onLine? onLines readLines
  searchLine)

/-! ## One record -/

/-- What two records come to that have the same fields and stand on different lines. -/
inductive Alike {α : Type} (file : String) (line line' : Nat) :
    Except Fault α → Except Fault α → Prop
  | accepted (a : α) : Alike file line line' (.ok a) (.ok a)
  | refused (defect : RecordDefect) :
      Alike file line line' (.error (.record file line defect)) (.error (.record file line' defect))

variable {α β : Type} {file : String} {line line' : Nat} {r r' : Record} {defect : RecordDefect}

theorem Alike.bind {x y : Except Fault α} {f g : α → Except Fault β}
    (h : Alike file line line' x y) (hf : ∀ a, Alike file line line' (f a) (g a)) :
    Alike file line line' (x >>= f) (y >>= g) := by
  cases h with
  | accepted a => exact hf a
  | refused defect => exact .refused defect

theorem alike_number (file : String) (r r' : Record) (what : String) (field : List Char) :
    Alike file r.line r'.line (number file r what field) (number file r' what field) := by
  unfold number
  split
  · exact .accepted _
  · exact .refused _

theorem alike_edge (h : r.fields = r'.fields) :
    Alike file r.line r'.line (edge file r) (edge file r') := by
  unfold edge
  rw [h]
  split
  · exact (alike_number file r r' _ _).bind fun s =>
      (alike_number file r r' _ _).bind fun t => .accepted (s, t)
  · exact .refused .edgeExpected

theorem alike_vertexLabel (h : r.fields = r'.fields) :
    Alike file r.line r'.line (vertexLabel file r) (vertexLabel file r') := by
  unfold vertexLabel
  rw [h]
  split
  · exact (alike_number file r r' _ _).bind fun v =>
      (alike_number file r r' _ _).bind fun l => .accepted (v, l)
  · exact .refused .labelExpected

theorem alike_declare (d : Declared) (h : r.fields = r'.fields) :
    Alike file r.line r'.line (declare file d r) (declare file d r') := by
  unfold declare
  rw [h]
  split
  · refine (alike_number file r r' _ _).bind fun p => (alike_number file r r' _ _).bind fun l => ?_
    split
    · exact .refused (.declaredTwice p)
    · exact .accepted _
  · exact (alike_number file r r' _ _).bind fun s =>
      (alike_number file r r' _ _).bind fun t => .accepted _
  · exact .refused .patternExpected

/-! ## One record after the other -/

/-- Reading one record after the other, where each is accepted or refused by its fields. -/
structure ReadsInTurn (file : String) (read : List Record → Except Fault α)
    (next : α → Record → Except Fault α) : Prop where
  nil : ∃ a, read [] = .ok a
  concat : ∀ rs r, read (rs ++ [r]) = read rs >>= fun a => next a r
  alike : ∀ a r r', r.fields = r'.fields →
    Alike file r.line r'.line (next a r) (next a r')

theorem readsInTurn_mapM (file : String) {f : Record → Except Fault α}
    (hf : ∀ r r', r.fields = r'.fields → Alike file r.line r'.line (f r) (f r')) :
    ReadsInTurn file (·.mapM f) fun as r => f r >>= fun a => .ok (as ++ [a]) where
  nil := ⟨[], rfl⟩
  concat rs r := by
    rw [List.mapM_append]
    cases rs.mapM f with
    | error fault => rfl
    | ok as =>
      rw [List.mapM_cons]
      cases f r <;> rfl
  alike as r r' h := (hf r r' h).bind fun a => .accepted _

theorem readsInTurn_foldlM (file : String) {next : β → Record → Except Fault β} (b : β)
    (hnext : ∀ b r r', r.fields = r'.fields → Alike file r.line r'.line (next b r) (next b r')) :
    ReadsInTurn file (·.foldlM next b) next where
  nil := ⟨b, rfl⟩
  concat rs r := by
    rw [List.foldlM_append]
    cases rs.foldlM next b with
    | error fault => rfl
    | ok b' =>
      change (next b' r >>= pure) = next b' r
      exact bind_pure _
  alike := hnext

/-- The first record that is refused is on the line behind the given ones. -/
structure FirstRefused (file : String) (read : List Record → Except Fault α) (sep : Char)
    (before : List (List Char)) (l : List Char) (defect : RecordDefect) : Prop where
  accepted : ∃ a, read (onLines sep before) = .ok a
  refused : read (onLines sep (before ++ [l])) = .error (.record file (before.length + 1) defect)

/-- What the records on lines come to, with the numbers that the reader keeps and with those of
their own lines. -/
inductive Outcome (file : String) (read : List Record → Except Fault α) (sep : Char)
    (ls : List (List Char)) : Prop
  | accepted {a : α} (hread : read (readLines sep ls) = .ok a)
      (hown : read (onLines sep ls) = .ok a)
  | refused {before after : List (List Char)} {l : List Char} {defect : RecordDefect}
      (hls : ls = before ++ l :: after) (hfirst : FirstRefused file read sep before l defect)
      (hread : read (readLines sep ls) = .error (.record file (searchLine before) defect))
      (hown : read (onLines sep ls) = .error (.record file (before.length + 1) defect))

namespace ReadsInTurn

variable {read : List Record → Except Fault α} {next : α → Record → Except Fault α} {sep : Char}
  {ls : List (List Char)} {l : List Char} {rs : List Record}

theorem append_toList_of_error (h : ReadsInTurn file read next) {fault : Fault}
    (hrs : read rs = .error fault) (r? : Option Record) :
    read (rs ++ r?.toList) = .error fault := by
  cases r? with
  | none => rw [Option.toList_none, List.append_nil, hrs]
  | some r =>
    rw [Option.toList_some, h.concat, hrs]
    rfl

/-- One more line, after others that are accepted. -/
theorem outcome_line (h : ReadsInTurn file read next) {a : α} {rs' : List Record} (m n : Nat)
    (hrs : read rs = .ok a) (hrs' : read rs' = .ok a) (sep : Char) (l : List Char) :
    Alike file m n (read (rs ++ (onLine? sep m l).toList))
      (read (rs' ++ (onLine? sep n l).toList)) := by
  by_cases hrecord : isSkipped l = true ∨ Records.fieldsOf sep l = []
  · have hnone : ∀ k, onLine? sep k l = none := fun k => by
      rcases hrecord with hskipped | hfields
      · rw [onLine?, if_pos hskipped]
      · rw [onLine?, Records.Passage.record?, if_pos hfields, ite_self]
    rw [hnone, hnone, Option.toList_none, List.append_nil, List.append_nil, hrs, hrs']
    exact .accepted a
  · rw [not_or] at hrecord
    have hsome : ∀ k, onLine? sep k l = some ⟨k, Records.fieldsOf sep l⟩ := fun k => by
      rw [onLine?, if_neg hrecord.1, Records.Passage.record?, if_neg hrecord.2]
    rw [hsome, hsome, Option.toList_some, Option.toList_some, h.concat, h.concat, hrs, hrs']
    exact h.alike a ⟨m, _⟩ ⟨n, _⟩ rfl

/-- All lines. -/
theorem outcome (h : ReadsInTurn file read next) (sep : Char) (hls : ∀ l ∈ ls, IsLone l) :
    Outcome file read sep ls := by
  -- from the last line on: where the search for its record begins depends on all lines in front
  induction ls using List.reverseRecOn with
  | nil =>
    obtain ⟨a, ha⟩ := h.nil
    have hnone : readLines sep [] = [] := by simp [readLines, unlines, Records.passages]
    exact .accepted (hnone ▸ ha) ha
  | append_singleton ls l ih =>
    have hfront : ∀ l ∈ ls, IsLone l := fun k hk => hls k (List.mem_append_left _ hk)
    have hl := hls l (List.mem_append_right _ List.mem_cons_self)
    have hread := Records.readLines_concat sep hfront hl
    have hown := Records.onLines_concat sep ls l
    cases ih hfront with
    | accepted hread' hown' =>
      have hline := h.outcome_line (searchLine ls) (ls.length + 1) hread' hown' sep l
      rw [← hread, ← hown] at hline
      generalize hx : read (readLines sep (ls ++ [l])) = x at hline
      generalize hy : read (onLines sep (ls ++ [l])) = y at hline
      cases hline with
      | accepted a => exact .accepted hx hy
      | refused defect =>
        have hsplit : ls ++ [l] = ls ++ l :: [] := rfl
        exact .refused hsplit ⟨⟨_, hown'⟩, hy⟩ hx hy
    | @refused before after k defect hsplit hfirst hread' hown' =>
      have hlonger : ls ++ [l] = before ++ k :: (after ++ [l]) := by
        rw [hsplit, List.append_assoc, List.cons_append]
      refine .refused hlonger hfirst ?_ ?_
      · rw [hread, h.append_toList_of_error hread']
      · rw [hown, h.append_toList_of_error hown']

end ReadsInTurn

/-! ## What is reported -/

/-- How a refusal is reported: there is one if a record is refused, it is about the first of them,
and its line is the record's own just if the line in front is not skipped. -/
structure Locates (file : String) (read : List Record → Except Fault α) (sep : Char)
    (ls : List (List Char)) (reported : Except Fault β) : Prop where
  refused_iff : (∃ f line defect, reported = .error (.record f line defect)) ↔
    ∃ fault, read (onLines sep ls) = .error fault
  line : ∀ f line defect, reported = .error (.record f line defect) → f = file ∧
    ∃ before l after, ls = before ++ l :: after ∧ FirstRefused file read sep before l defect ∧
      line = searchLine before ∧
      (line = before.length + 1 ↔ ∀ s ∈ before.getLast?, isSkipped s = false)

/-- A refusal is reported if nothing after the records is one. -/
theorem ReadsInTurn.locates {read : List Record → Except Fault α}
    {next : α → Record → Except Fault α} (h : ReadsInTurn file read next) {sep : Char}
    {ls : List (List Char)} (hls : ∀ l ∈ ls, IsLone l) (rest : α → Except Fault β)
    (hrest : ∀ a f line defect, rest a ≠ .error (.record f line defect)) :
    Locates file read sep ls (read (readLines sep ls) >>= rest) := by
  cases h.outcome sep hls with
  | accepted hread hown =>
    rw [hread]
    constructor
    · refine ⟨fun ⟨f, line, defect, hrefused⟩ => absurd hrefused (hrest _ _ _ _), ?_⟩
      rintro ⟨fault, hfault⟩
      rw [hown] at hfault
      cases hfault
    · exact fun f line defect hrefused => absurd hrefused (hrest _ _ _ _)
  | refused hsplit hfirst hread hown =>
    rw [hread]
    constructor
    · exact ⟨fun _ => ⟨_, hown⟩, fun _ => ⟨_, _, _, rfl⟩⟩
    · intro f line defect hrefused
      cases hrefused
      exact ⟨rfl, _, _, _, hsplit, hfirst, rfl, Records.searchLine_eq_iff _⟩

theorem build_ne_record {n : Nat} {edges : Array (PatternId × PatternId)} {labels : Array Label} :
    Pattern.build n edges labels ≠ .error (.record file line defect) := by
  unfold Pattern.build
  split
  · exact nofun
  · split
    · exact nofun
    · split <;> exact nofun

/-- What is wrong with declarations as a whole is not reported as a refusal of a record. -/
theorem pattern_ne_record (d : Declared) : d.pattern ≠ .error (.record file line defect) := by
  simp only [Declared.pattern]
  split
  · exact nofun
  · exact build_ne_record

/-- **Where refusals are reported.** Whether a text of lines is an edge list, a list of labels or a
pattern, if one of its records is refused, then the first of these is reported, with the line behind
the last one in front that is not skipped. This is the line of the record just if the line in front
of the record is not skipped. -/
theorem refusals_located (file : String) (fallback : Label) {text : List Char}
    {ls : List (List Char)} (htext : dropMark text = unlines ls) (hls : ∀ l ∈ ls, IsLone l) :
    Locates file (·.mapM (edge file)) (separator text) ls (edgeList file text) ∧
      Locates file (·.mapM (vertexLabel file)) (separator text) ls (labels file fallback text) ∧
      Locates file (·.foldlM (declare file) {}) (separator text) ls (pattern file text) := by
  have hread : Records.ofText text = readLines (separator text) ls :=
    Records.split_eq_readLines (Records.isLineEnd_separator text) htext hls
  have hedges := readsInTurn_mapM file fun _ _ => alike_edge
  have hlabels := readsInTurn_mapM file fun _ _ => alike_vertexLabel
  have hpattern := readsInTurn_foldlM file {} fun d _ _ => alike_declare d
  refine ⟨?_, ?_, ?_⟩
  · rw [edgeList, hread]
    exact hedges.locates hls _ fun _ _ _ _ => nofun
  · rw [labels, hread]
    exact hlabels.locates hls _ fun _ _ _ _ => nofun
  · rw [pattern, hread]
    exact hpattern.locates hls _ fun d _ _ _ => pattern_ne_record d

/-- A comment, an edge, an empty line, and what is neither an edge nor a label. -/
def gappedLines : List (List Char) := ["# c".toList, "0 1".toList, [], "x y".toList]

theorem refusals_located_gappedLines :
    let text := unlines gappedLines
    dropMark text = unlines gappedLines ∧ (∀ l ∈ gappedLines, IsLone l) ∧
      labels "input.txt" 0 text = .error (.record "input.txt" 3 (.badNumber "vertex" "x")) ∧
      pattern "input.txt" text = .error (.record "input.txt" 1 .patternExpected) ∧
      Locates "input.txt" (·.mapM (edge "input.txt")) (separator text) gappedLines
        (edgeList "input.txt" text) ∧
      Locates "input.txt" (·.mapM (vertexLabel "input.txt")) (separator text) gappedLines
        (labels "input.txt" 0 text) ∧
      Locates "input.txt" (·.foldlM (declare "input.txt") {}) (separator text) gappedLines
        (pattern "input.txt" text) := by
  have htext : dropMark (unlines gappedLines) = unlines gappedLines := by decide
  have hls : ∀ l ∈ gappedLines, IsLone l := by decide
  exact ⟨htext, hls, rfl, rfl, refusals_located "input.txt" 0 htext hls⟩

/-- The line that is reported need not be that of the first record that is refused, which is the
fourth one here. -/
theorem refusal_behind_emptyLine :
    edgeList "input.txt" (unlines gappedLines) =
        .error (.record "input.txt" 3 (.badNumber "source vertex" "x")) ∧
      FirstRefused "input.txt" (·.mapM (edge "input.txt")) (separator (unlines gappedLines))
        (gappedLines.take 3) "x y".toList (.badNumber "source vertex" "x") ∧
      gappedLines = gappedLines.take 3 ++ ["x y".toList] ∧ 3 ≠ (gappedLines.take 3).length + 1 :=
  ⟨rfl, ⟨⟨_, rfl⟩, rfl⟩, rfl, by decide⟩

end VertexSweep.Input
