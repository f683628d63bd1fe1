import VertexSweep.Proofs.Text.Passages

/-!
# Records and lines

How the two ways of looking at a text see one more line of it. The separator is read off the first
line with data (`firstData_append`); a passage is a line that is neither empty nor a comment, and
the search for the next one begins behind its line end (`passages_append`).
-/

namespace VertexSweep.Records

open Blank (isBlank trim)

variable {sep c : Char} {l cs rest text : List Char} {line start : Nat}

/-! ## The line with the separator -/

theorem lines_eq_splitOn (text : List Char) : lines text = text.splitOn '\n' := by
  induction text with
  | nil => rfl
  | cons c text ih =>
    rw [lines, List.foldr_cons, show List.foldr _ [[]] text = lines text from rfl,
      List.splitOn_cons_eq_if_modifyHead, ← ih]
    by_cases hc : c = '\n'
    · simp [hc]
    · cases hlines : lines text with
      | nil => exact absurd (ih.symm.trans hlines) (List.splitOn_ne_nil '\n' text)
      | cons l ls => simp [hc]

/-- Whether a line has data: it is neither blank nor a comment. -/
def isData (l : List Char) : Bool := !(trim l).isEmpty && (trim l).head? != some '#'

/-- The first of the separators that a line with data contains. -/
def separatorIn (l : List Char) : Char :=
  if l.contains '\t' then '\t' else if l.contains ',' then ',' else ' '

theorem separator_eq (text : List Char) : separator text = separatorIn (firstData text) := rfl

theorem isLineEnd_separator (text : List Char) : isLineEnd (separator text) = false := by
  rw [separator_eq, separatorIn]
  split
  · rfl
  · split <;> rfl

theorem lines_append (hl : '\n' ∉ l) : lines (l ++ '\n' :: rest) = l :: lines rest := by
  rw [lines_eq_splitOn, List.splitOn_append_cons_self, List.splitOn_eq_singleton hl,
    ← lines_eq_splitOn, List.singleton_append]

theorem lines_of_notMem (hl : '\n' ∉ l) : lines l = [l] := by
  rw [lines_eq_splitOn, List.splitOn_eq_singleton hl]

theorem firstData_append (hl : '\n' ∉ l) :
    firstData (l ++ '\n' :: rest) = if isData l then trim l else firstData rest := by
  rw [firstData, lines_append hl, List.map_cons, List.find?_cons]
  change Option.getD (match isData l with | true => _ | false => _) [] = _
  cases isData l <;> rfl

theorem firstData_of_notMem (hl : '\n' ∉ l) : firstData l = if isData l then trim l else [] := by
  rw [firstData, lines_of_notMem hl, List.map_singleton, List.find?_singleton]
  change Option.getD (if isData l then _ else _) [] = _
  cases isData l <;> rfl

/-- The first line with data, if it is the first line. -/
theorem firstData_of_isData (hl : '\n' ∉ l) (hdata : isData l = true)
    (hrest : ∀ e ∈ rest.head?, e = '\n') : firstData (l ++ rest) = trim l := by
  cases rest with
  | nil => rw [List.append_nil, firstData_of_notMem hl, if_pos hdata]
  | cons e rest => rw [hrest e rfl, firstData_append hl, if_pos hdata]

/-- The first line of a text, and what follows it. -/
theorem exists_line (text : List Char) :
    ∃ l rest, text = l ++ rest ∧ '\n' ∉ l ∧ ∀ e ∈ rest.head?, e = '\n' := by
  by_cases h : '\n' ∈ text
  · obtain ⟨l, rest, htext, hl⟩ := List.eq_append_cons_of_mem h
    exact ⟨l, '\n' :: rest, htext, hl, fun e he => (Option.some.inj he).symm⟩
  · exact ⟨text, [], (List.append_nil text).symm, h, fun e he => by cases he⟩

/-- How a line ends. -/
inductive LineEnd where
  | newline
  | returnNewline
deriving DecidableEq, Repr

def LineEnd.chars : LineEnd → List Char
  | newline => ['\n']
  | returnNewline => ['\r', '\n']

theorem append_newline (l rest : List Char) :
    l ++ '\n' :: rest = l ++ LineEnd.newline.chars ++ rest := by
  rw [LineEnd.chars, List.append_assoc]
  rfl

theorem isData_congr {l' : List Char} (h : trim l = trim l') : isData l = isData l' := by
  rw [isData, isData, h]

/-- The first line with data, if there is another line in front. -/
theorem firstData_line (e : LineEnd) (hl : '\n' ∉ l) :
    firstData (l ++ e.chars ++ rest) = if isData l then trim l else firstData rest := by
  cases e with
  | newline => rw [LineEnd.chars, List.append_assoc]; exact firstData_append hl
  | returnNewline =>
    have htrim : trim (l ++ ['\r']) = trim l :=
      Blank.trim_append_right (List.forall_mem_singleton.2 (by decide))
    have hsplit : l ++ LineEnd.chars .returnNewline ++ rest = (l ++ ['\r']) ++ '\n' :: rest := by
      simp [LineEnd.chars]
    rw [hsplit, firstData_append (by simp [hl]), isData_congr htrim, htrim]

/-! ## Lines as passages -/

/-- The line on which the search for a record begins after one that ends in the given way. The line
feed behind a carriage return has not been counted then. -/
def LineEnd.next (line : Nat) : LineEnd → Nat
  | newline => line + 1
  | returnNewline => line

/-- Whether a line is skipped in the search for a record. -/
def isSkipped (l : List Char) : Bool := l.isEmpty || l.head? == some '#'

theorem passages_newline (line start : Nat) (cs : List Char) :
    passages line start ('\n' :: cs) = passages (line + 1) start cs := by
  rw [passages, if_pos rfl]

theorem passages_return (line start : Nat) (cs : List Char) :
    passages line start ('\r' :: cs) = passages line start cs := by
  rw [passages, if_neg (by decide), if_pos rfl]

theorem passages_lineEnd (line start : Nat) (e : LineEnd) (cs : List Char) :
    passages line start (e.chars ++ cs) = passages (line + 1) start cs := by
  cases e with
  | newline => exact passages_newline line start cs
  | returnNewline => exact (passages_return line start _).trans (passages_newline line start cs)

theorem passages_number (line start : Nat) (cs : List Char) :
    passages line start ('#' :: cs) = passages line start (cs.dropWhile (· != '\n')) := by
  rw [passages, if_neg (by decide), if_neg (by decide), if_pos rfl]

/-- A line that is skipped, and what follows it. -/
theorem passages_append_of_isSkipped (e : LineEnd) (hl : '\n' ∉ l) (hskipped : isSkipped l = true) :
    passages line start (l ++ e.chars ++ rest) = passages (line + 1) start rest := by
  cases l with
  | nil => exact passages_lineEnd line start e rest
  | cons c l =>
    have hc : c = '#' := by simpa [isSkipped] using hskipped
    subst hc
    have hrest : ∀ cs : List Char, '\n' ∉ cs →
        (cs ++ '\n' :: rest).dropWhile (· != '\n') = '\n' :: rest := by
      intro cs hcs
      rw [List.dropWhile_append_of_pos]
      · rfl
      · intro d hd
        rw [bne_iff_ne]
        exact fun heq => hcs (heq ▸ hd)
    have hcomment : '\n' ∉ l := fun h => hl (List.mem_cons_of_mem _ h)
    rw [List.cons_append, List.cons_append, passages_number, List.append_assoc]
    cases e with
    | newline =>
      rw [LineEnd.chars, List.singleton_append, hrest l hcomment, passages_newline]
    | returnNewline =>
      have hreturn := hrest (l ++ ['\r']) (by simp [hcomment])
      rw [List.append_assoc] at hreturn
      exact (congrArg _ hreturn).trans (passages_newline line start rest)

theorem passages_record (hnumber : c ≠ '#') (hl : ∀ d ∈ c :: cs, isLineEnd d = false)
    (hrest : ∀ e ∈ rest.head?, isLineEnd e = true) :
    passages line start (c :: cs ++ rest) = ⟨start, c :: cs⟩ ::
      (let next := if rest.head? = some '\n' then line + 1 else line
      passages next next rest.tail) := by
  have hend := hl c List.mem_cons_self
  have hcs : ∀ d ∈ cs, (!isLineEnd d) = true := fun d hd => by
    simp [hl d (List.mem_cons_of_mem c hd)]
  have htake : rest.takeWhile (!isLineEnd ·) = [] ∧ rest.dropWhile (!isLineEnd ·) = rest := by
    cases rest with
    | nil => exact ⟨rfl, rfl⟩
    | cons e rest => simp [hrest e rfl]
  simp only [isLineEnd, Bool.or_eq_false_iff, beq_eq_false_iff_ne] at hend
  rw [List.cons_append, passages, if_neg hend.1, if_neg hend.2, if_neg hnumber,
    List.takeWhile_append_of_pos hcs, List.dropWhile_append_of_pos hcs, htake.1, htake.2,
    List.append_nil]

theorem passages_of_isSkipped (hl : '\n' ∉ l) (hskipped : isSkipped l = true) :
    passages line start l = [] := by
  cases l with
  | nil => rw [passages]
  | cons c l =>
    have hc : c = '#' := by simpa [isSkipped] using hskipped
    have hrest : l.dropWhile (· != '\n') = [] := List.dropWhile_eq_nil_iff.2 fun d hd => by
      rw [bne_iff_ne]
      exact fun heq => hl (heq ▸ List.mem_cons_of_mem c hd)
    rw [hc, passages_number, hrest, passages]

theorem passages_singleton (hl : ∀ c ∈ l, isLineEnd c = false) (hskipped : isSkipped l = false) :
    passages line start l = [⟨start, l⟩] := by
  cases l with
  | nil => cases hskipped
  | cons c cs =>
    have hnumber : c ≠ '#' := by simpa [isSkipped] using hskipped
    have hrecord : passages line start (c :: cs ++ []) = _ := passages_record hnumber hl (by simp)
    rwa [List.append_nil, List.tail_nil, passages] at hrecord

/-- A record on a line of its own, and what follows it. -/
theorem passages_append (e : LineEnd) (hl : ∀ c ∈ l, isLineEnd c = false)
    (hskipped : isSkipped l = false) : passages line start (l ++ e.chars ++ rest) =
      ⟨start, l⟩ :: passages (line + 1) (e.next line) rest := by
  cases l with
  | nil => cases hskipped
  | cons c cs =>
    have hnumber : c ≠ '#' := by simpa [isSkipped] using hskipped
    rw [List.append_assoc]
    cases e with
    | newline => exact passages_record hnumber hl (by simp [LineEnd.chars, isLineEnd])
    | returnNewline =>
      rw [passages_record hnumber hl (by simp [LineEnd.chars, isLineEnd])]
      exact congrArg _ (passages_newline line line rest)

end VertexSweep.Records
