import Mathlib.Data.List.DropRight
import VertexSweep.Proofs.Text.Lines

/-!
# The line numbers of records

Where the lines of a text are read on their own, each record has a line (`onLines`). The number that
the reader keeps with the record is another one, however: that of the line behind the last one in
front that is not skipped (`readLines_concat`). The two are the same just if the line in front is
not skipped (`searchLine_eq_iff`).
-/

namespace VertexSweep.Records

/-- Lines, each ended by a line feed. -/
def unlines (ls : List (List Char)) : List Char := ls.flatMap (· ++ ['\n'])

/-- Whether a line is read on its own. In lines that are skipped there may be any characters but
line feeds. -/
def IsLone (l : List Char) : Prop := '\n' ∉ l ∧ (isSkipped l = true ∨ '\r' ∉ l ∧ '"' ∉ l)

instance (l : List Char) : Decidable (IsLone l) :=
  inferInstanceAs (Decidable ('\n' ∉ l ∧ (isSkipped l = true ∨ '\r' ∉ l ∧ '"' ∉ l)))

/-- The record on a line, if there is one, with a number. -/
def onLine? (sep : Char) (number : Nat) (l : List Char) : Option Record :=
  if isSkipped l then none else Passage.record? sep ⟨number, l⟩

/-- The records on lines, each with the number of its own line. -/
def onLines (sep : Char) (ls : List (List Char)) : List Record :=
  (ls.zipIdx 1).filterMap fun l => onLine? sep l.2 l.1

/-- The records on lines, with the numbers that the reader keeps. -/
def readLines (sep : Char) (ls : List (List Char)) : List Record :=
  (passages 1 1 (unlines ls)).filterMap (Passage.record? sep)

/-- The line on which the search for a record begins that has the given lines in front: the one
behind the last of them that is not skipped. -/
def searchLine (before : List (List Char)) : Nat := (before.rdropWhile isSkipped).length + 1

variable {sep : Char} {l rest text : List Char} {ls before : List (List Char)} {line start : Nat}

theorem unlines_concat (ls : List (List Char)) (l : List Char) :
    unlines (ls ++ [l]) = unlines ls ++ (l ++ ['\n']) := by
  simp [unlines]

theorem searchLine_concat (before : List (List Char)) (l : List Char) :
    searchLine (before ++ [l]) = if isSkipped l then searchLine before else before.length + 2 := by
  rw [searchLine, List.rdropWhile_concat]
  split
  · rfl
  · rw [List.length_append]
    rfl

theorem searchLine_le (before : List (List Char)) : searchLine before ≤ before.length + 1 :=
  Nat.succ_le_succ (List.rdropWhile_prefix isSkipped before).length_le

/-- The search for a record begins on its own line just if the line in front is not skipped. -/
theorem searchLine_eq_iff (before : List (List Char)) :
    searchLine before = before.length + 1 ↔ ∀ l ∈ before.getLast?, isSkipped l = false := by
  rcases List.eq_nil_or_concat' before with rfl | ⟨front, l, rfl⟩
  · simp [searchLine]
  · rw [searchLine_concat, List.getLast?_concat, List.length_append, List.length_singleton]
    have hfront := searchLine_le front
    cases hl : isSkipped l with
    | true =>
      simp only [if_true, Option.mem_some_iff, forall_eq', hl, Bool.true_eq_false, iff_false]
      omega
    | false => simp [hl]

/-! ## Lines as passages -/

theorem passages_cons_unlines (hl : IsLone l) : passages line start (l ++ '\n' :: rest) =
    (if isSkipped l then [] else [⟨start, l⟩]) ++
      passages (line + 1) (if isSkipped l then start else line + 1) rest := by
  rw [append_newline]
  cases hskipped : isSkipped l with
  | true => exact passages_append_of_isSkipped .newline hl.1 hskipped
  | false =>
    have hclear := hl.2.resolve_left (by simp [hskipped])
    exact passages_append .newline (isLineEnd_of_notMem hl.1 hclear.1) hskipped

/-- Where the reader is behind some lines. -/
theorem passages_unlines_append (hls : ∀ l ∈ ls, IsLone l) (rest : List Char) :
    passages 1 1 (unlines ls ++ rest) =
      passages 1 1 (unlines ls) ++ passages (ls.length + 1) (searchLine ls) rest := by
  induction ls using List.reverseRecOn generalizing rest with
  | nil => simp [unlines, searchLine, passages]
  | append_singleton ls l ih =>
    have hfront : ∀ l ∈ ls, IsLone l := fun k hk => hls k (List.mem_append_left _ hk)
    have hl := hls l (List.mem_append_right _ List.mem_cons_self)
    have hstep : ∀ rest, passages 1 1 (unlines (ls ++ [l]) ++ rest) = passages 1 1 (unlines ls) ++
        ((if isSkipped l then [] else [⟨searchLine ls, l⟩]) ++
          passages (ls.length + 2) (searchLine (ls ++ [l])) rest) := by
      intro rest
      rw [unlines_concat, List.append_assoc, List.append_assoc, ih hfront, List.singleton_append,
        passages_cons_unlines hl, searchLine_concat]
    have hwhole := hstep []
    rw [passages, List.append_nil, List.append_nil] at hwhole
    rw [hstep, hwhole, List.length_append, List.append_assoc]
    rfl

theorem passages_unlines_concat (hls : ∀ l ∈ ls, IsLone l) (hl : IsLone l) :
    passages 1 1 (unlines (ls ++ [l])) = passages 1 1 (unlines ls) ++
      if isSkipped l then [] else [⟨searchLine ls, l⟩] := by
  rw [unlines_concat, passages_unlines_append hls, passages_cons_unlines hl, passages,
    List.append_nil]

/-! ## Numbers -/

theorem onLines_concat (sep : Char) (ls : List (List Char)) (l : List Char) :
    onLines sep (ls ++ [l]) = onLines sep ls ++ (onLine? sep (ls.length + 1) l).toList := by
  rw [onLines, List.zipIdx_append, List.filterMap_append, List.zipIdx_singleton,
    Nat.add_comm 1 ls.length]
  cases hrecord : onLine? sep (ls.length + 1) l <;> simp [hrecord, onLines]

theorem readLines_concat (sep : Char) (hls : ∀ l ∈ ls, IsLone l) (hl : IsLone l) :
    readLines sep (ls ++ [l]) = readLines sep ls ++ (onLine? sep (searchLine ls) l).toList := by
  rw [readLines, passages_unlines_concat hls hl, List.filterMap_append]
  cases hskipped : isSkipped l with
  | true => simp [readLines, onLine?, hskipped]
  | false =>
    cases hrecord : Passage.record? sep ⟨searchLine ls, l⟩ <;>
      simp [readLines, onLine?, hskipped, hrecord]

/-- What the reader makes of lines. -/
theorem split_eq_readLines (hsep : isLineEnd sep = false) (htext : dropMark text = unlines ls)
    (hls : ∀ l ∈ ls, IsLone l) : split sep text = readLines sep ls := by
  have hquote : ∀ p ∈ passages 1 1 (unlines ls), '"' ∉ p.text := by
    clear htext
    induction ls using List.reverseRecOn with
    | nil => simp [unlines, passages]
    | append_singleton ls l ih =>
      have hfront : ∀ l ∈ ls, IsLone l := fun k hk => hls k (List.mem_append_left _ hk)
      have hl := hls l (List.mem_append_right _ List.mem_cons_self)
      rw [passages_unlines_concat hfront hl]
      intro p hp
      rcases List.mem_append.1 hp with hp | hp
      · exact ih hfront p hp
      · split at hp
        · cases hp
        · rename_i hskipped
          rw [List.mem_singleton.1 hp]
          exact (hl.2.resolve_left hskipped).2
  rw [split_eq hsep (htext ▸ hquote), htext]
  rfl

end VertexSweep.Records
