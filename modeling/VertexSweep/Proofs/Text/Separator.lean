import Mathlib.Data.List.Basic
import VertexSweep.Proofs.Text.Lines

/-!
# The separator and the first record

The separator of a text is read off its first line with data, and the reader finds its first record
in its own way. The two are about the same characters where each line up to the first one with data
is to the reader what it looks like (`separator_firstRecord`). They can differ where a comment is
indented, where a carriage return stands within a line, where a line has commas only, and where a
byte order mark hides a comment (`separator_ne_of_stray`).
-/

namespace VertexSweep.Records

open Blank (isBlank trim)

def hasField (sep : Char) (cs : List Char) : Bool := !(fieldsOf sep cs).isEmpty

/-- The texts of the records, trimmed. -/
def recordTexts (sep : Char) (text : List Char) : List (List Char) :=
  ((passages 1 1 (dropMark text)).map (trim ·.text)).filter (hasField sep)

/-- The lines up to the first one with data. -/
def leadingLines : List (List Char) → List (List Char)
  | [] => []
  | l :: ls => l :: if isData l then [] else leadingLines ls

/-- Whether a line is to the reader what it looks like: a comment begins with the line, and data is
one record, which has a field with the separator in it. -/
structure IsOrderly (l : List Char) : Prop where
  comment : (trim l).head? = some '#' → l.head? = some '#'
  returns : isData l = true → '\r' ∉ l.dropLast
  field : isData l = true → hasField (separatorIn (trim l)) (trim l) = true

instance (l : List Char) : Decidable (IsOrderly l) :=
  decidable_of_iff (((trim l).head? = some '#' → l.head? = some '#') ∧
    (isData l = true → '\r' ∉ l.dropLast) ∧
    (isData l = true → hasField (separatorIn (trim l)) (trim l) = true))
    ⟨fun h => ⟨h.1, h.2.1, h.2.2⟩, fun h => ⟨h.comment, h.returns, h.field⟩⟩

/-- Whether a byte order mark stands right before data, if there is one. -/
def IsMarkBeforeData : List Char → Prop
  | m :: c :: _ => m = '\ufeff' → isBlank c = false ∧ c ≠ '#'
  | _ => True

variable {sep c : Char} {l cs rest text : List Char} {line start : Nat}

/-- The fields of the records are those of their texts. -/
theorem map_fields_split (hsep : isLineEnd sep = false) (hquote : '"' ∉ text) :
    (split sep text).map (·.fields) = (recordTexts sep text).map (fieldsOf sep) := by
  have hmark : '"' ∉ dropMark text := by
    unfold dropMark
    split
    · exact List.not_mem_nil
    · split
      · exact fun h => hquote (List.mem_cons_of_mem _ h)
      · exact hquote
  rw [split_eq hsep fun p hp h => hmark (mem_of_mem_passages hp h), recordTexts]
  induction passages 1 1 (dropMark text) with
  | nil => rfl
  | cons p ps ih =>
    rw [List.map_cons, List.filter_cons, List.filterMap_cons, Passage.record?, hasField,
      fieldsOf_trim]
    by_cases hfields : fieldsOf sep p.text = []
    · simp [hfields, ih]
    · simp [hfields, ih, fieldsOf_trim]

/-! ## Lines without data -/

/-- What is found on a line consists of its characters. -/
theorem exists_passages_append (hl : '\n' ∉ l) (line start : Nat) (rest : List Char) :
    ∃ ps next, passages line start (l ++ '\n' :: rest) = ps ++ passages (line + 1) next rest ∧
      ∀ p ∈ ps, ∀ c ∈ p.text, c ∈ l := by
  fun_induction passages line start l with
  | case1 line start => exact ⟨[], start, passages_newline line start rest, List.forall_mem_nil _⟩
  | case2 line start cs ih => exact absurd List.mem_cons_self hl
  | case3 line start cs _ ih =>
    obtain ⟨ps, next, heq, hps⟩ := ih fun h => hl (List.mem_cons_of_mem _ h)
    refine ⟨ps, next, ?_, fun p hp c hc => List.mem_cons_of_mem _ (hps p hp c hc)⟩
    rw [List.cons_append, passages_return, heq]
  | case4 line start cs _ _ ih =>
    rw [append_newline, passages_append_of_isSkipped .newline hl rfl]
    exact ⟨[], start, rfl, List.forall_mem_nil _⟩
  | case5 line start c cs hnewline hreturn hnumber tail =>
    rename_i line' ih
    have hsplit : c :: cs = c :: cs.takeWhile (!isLineEnd ·) ++ tail :=
      congrArg (c :: ·) List.takeWhile_append_dropWhile.symm
    have hbody := isLineEnd_of_mem_takeWhile hnewline hreturn cs
    have hend : ∀ e ∈ tail.head?, isLineEnd e = true := isLineEnd_of_mem_head?_dropWhile
    -- a line end within the line is a carriage return, and the rest of the line comes behind it
    clear_value tail
    rw [hsplit] at hl ⊢
    cases tail with
    | nil =>
      refine ⟨[⟨start, c :: cs.takeWhile (!isLineEnd ·)⟩], line + 1, ?_, ?_⟩
      · rw [List.append_nil]
        exact passages_record hnumber hbody (by simp [isLineEnd])
      · simp
    | cons e tail =>
      have he : some e ≠ some '\n' := fun heq => hl (by simp [Option.some.inj heq])
      have hline : line' = line := dif_neg he
      rw [hline, List.tail_cons] at ih
      obtain ⟨ps, next, heq, hps⟩ := ih fun h => hl (by simp [h])
      refine ⟨⟨start, c :: cs.takeWhile (!isLineEnd ·)⟩ :: ps, next, ?_, ?_⟩
      · rw [List.append_assoc, passages_record hnumber hbody (by simpa using hend),
          List.cons_append, List.head?_cons, if_neg he]
        exact congrArg _ heq
      · intro p hp d hd
        rcases List.mem_cons.1 hp with rfl | hp
        · exact List.mem_append_left _ hd
        · exact List.mem_append_right _ (List.mem_cons_of_mem e (hps p hp d hd))

theorem trim_eq_nil_or_isSkipped (horderly : IsOrderly l) (hdata : isData l = false) :
    trim l = [] ∨ isSkipped l = true := by
  by_cases hblank : trim l = []
  · exact .inl hblank
  · have hnumber := horderly.comment (by simpa [isData, hblank] using hdata)
    exact .inr (by simp [isSkipped, hnumber])

/-- Nothing is found on a line without data. -/
theorem exists_passages_of_not_isData (hl : '\n' ∉ l) (horderly : IsOrderly l)
    (hdata : isData l = false) (line start : Nat) (rest : List Char) :
    ∃ ps next, passages line start (l ++ '\n' :: rest) = ps ++ passages (line + 1) next rest ∧
      ∀ p ∈ ps, trim p.text = [] := by
  rcases trim_eq_nil_or_isSkipped horderly hdata with hblank | hskipped
  · obtain ⟨ps, next, heq, hps⟩ := exists_passages_append hl line start rest
    refine ⟨ps, next, heq, fun p hp => Blank.trim_eq_nil fun c hc => ?_⟩
    exact Blank.trim_eq_nil_iff.1 hblank c (hps p hp c hc)
  · rw [append_newline, passages_append_of_isSkipped .newline hl hskipped]
    exact ⟨[], start, rfl, List.forall_mem_nil _⟩

theorem trim_text_of_not_isData (hl : '\n' ∉ l) (horderly : IsOrderly l)
    (hdata : isData l = false) : ∀ p ∈ passages line start l, trim p.text = [] := by
  rcases trim_eq_nil_or_isSkipped horderly hdata with hblank | hskipped
  · intro p hp
    exact Blank.trim_eq_nil fun c hc => Blank.trim_eq_nil_iff.1 hblank c (mem_of_mem_passages hp hc)
  · rw [passages_of_isSkipped hl hskipped]
    exact List.forall_mem_nil _

/-! ## The first line with data -/

/-- A line is a text without line ends, and maybe a carriage return. -/
theorem exists_append_of_notMem_dropLast (hl : '\n' ∉ l) (hreturn : '\r' ∉ l.dropLast) :
    ∃ t back, l = t ++ back ∧ (back = [] ∨ back = ['\r']) ∧ ∀ c ∈ t, isLineEnd c = false := by
  by_cases hmem : '\r' ∈ l
  · rcases List.eq_nil_or_concat' l with rfl | ⟨front, c, rfl⟩
    · cases hmem
    · rw [List.dropLast_concat] at hreturn
      have hc : c = '\r' := by simpa [hreturn, eq_comm] using hmem
      have hfront : '\n' ∉ front := fun h => hl (List.mem_append_left _ h)
      exact ⟨front, ['\r'], by rw [hc], .inr rfl, isLineEnd_of_notMem hfront hreturn⟩
  · exact ⟨l, [], (List.append_nil l).symm, .inl rfl, isLineEnd_of_notMem hl hmem⟩

/-- A line with data is a record, less a carriage return at its end. -/
theorem exists_passages_of_isData (hl : '\n' ∉ l) (horderly : IsOrderly l) (hdata : isData l = true)
    (line start : Nat) (hrest : ∀ e ∈ rest.head?, e = '\n') :
    ∃ t ps, passages line start (l ++ rest) = ⟨start, t⟩ :: ps ∧ trim t = trim l := by
  obtain ⟨t, back, rfl, hback, ht⟩ := exists_append_of_notMem_dropLast hl (horderly.returns hdata)
  have htrim : trim (t ++ back) = trim t := Blank.trim_append_right (by
    rcases hback with rfl | rfl
    · exact List.forall_mem_nil _
    · exact List.forall_mem_singleton.2 (by decide))
  rw [isData_congr htrim] at hdata
  cases t with
  | nil => cases hdata
  | cons c cs =>
    have hnumber : c ≠ '#' := by
      rintro rfl
      obtain ⟨cs', hcs'⟩ := Blank.exists_trim_cons (c := '#') (by decide) cs
      simp [isData, hcs'] at hdata
    have hend : ∀ e ∈ (back ++ rest).head?, isLineEnd e = true := by
      intro e he
      rcases hback with rfl | rfl
      · rw [hrest e he]
        rfl
      · cases he
        rfl
    have heq : passages line start (c :: cs ++ (back ++ rest)) = _ :=
      passages_record hnumber ht hend
    rw [← List.append_assoc] at heq
    exact ⟨c :: cs, _, heq, htrim.symm⟩

theorem find?_hasField_eq_none {ps : List Passage} (hps : ∀ p ∈ ps, trim p.text = []) :
    (ps.map (trim ·.text)).find? (hasField sep) = none := by
  rw [List.find?_eq_none]
  intro t ht
  obtain ⟨p, hp, rfl⟩ := List.mem_map.1 ht
  rw [hps p hp]
  exact Bool.false_ne_true

theorem find?_passages_of_isData (hl : '\n' ∉ l) (horderly : IsOrderly l)
    (hdata : isData l = true) (rest : List Char) (line start : Nat)
    (hrest : ∀ e ∈ rest.head?, e = '\n') :
    ((passages line start (l ++ rest)).map (trim ·.text)).find? (hasField (separatorIn (trim l))) =
      if trim l = [] then none else some (trim l) := by
  obtain ⟨t, ps, heq, ht⟩ := exists_passages_of_isData hl horderly hdata line start hrest
  have hne : trim l ≠ [] := fun h => by simp [isData, h] at hdata
  rw [heq, List.map_cons, ht, List.find?_cons_of_pos (horderly.field hdata), if_neg hne]

/-- What is found first is the first line with data. -/
theorem find?_passages (hlines : ∀ l ∈ leadingLines (lines text), IsOrderly l) (line start : Nat) :
    ((passages line start text).map (trim ·.text)).find? (hasField (separator text)) =
      if firstData text = [] then none else some (firstData text) := by
  rw [separator_eq]
  induction text using separated_induction '\n' generalizing line start with
  | single l hl =>
    rw [lines_of_notMem hl, leadingLines] at hlines
    have horderly := hlines l List.mem_cons_self
    rw [firstData_of_notMem hl]
    cases hdata : isData l with
    | true =>
      simpa using find?_passages_of_isData hl horderly hdata [] line start
    | false =>
      rw [find?_hasField_eq_none (trim_text_of_not_isData hl horderly hdata)]
      rfl
  | joined l rest hl ih =>
    rw [lines_append hl, leadingLines] at hlines
    have horderly := hlines l List.mem_cons_self
    rw [firstData_append hl]
    cases hdata : isData l with
    | true => exact find?_passages_of_isData hl horderly hdata ('\n' :: rest) line start (by simp)
    | false =>
      obtain ⟨ps, next, heq, hps⟩ := exists_passages_of_not_isData hl horderly hdata line start rest
      rw [heq, List.map_append, List.find?_append, find?_hasField_eq_none hps, Option.none_or]
      refine ih (fun k hk => hlines k (List.mem_cons_of_mem l ?_)) _ _
      rwa [hdata, if_neg Bool.false_ne_true]

/-! ## A byte order mark -/

theorem separatorIn_cons (hc : c ≠ '\t' ∧ c ≠ ',') : separatorIn (c :: cs) = separatorIn cs := by
  simp [separatorIn, hc.1.symm, hc.2.symm]

theorem separator_mark (hblank : isBlank c = false) (hnumber : c ≠ '#') (cs : List Char) :
    separator ('\ufeff' :: c :: cs) = separator (c :: cs) := by
  have hmark : isBlank '\ufeff' = false := by decide
  have hdata : ∀ l, isData (c :: l) = true ∧ isData ('\ufeff' :: c :: l) = true := by
    intro l
    obtain ⟨rest, hrest⟩ := Blank.exists_trim_cons hblank l
    simp [isData, Blank.trim_cons_cons hmark hblank, hrest, hnumber]
  have hsame : ∀ l, separatorIn (trim ('\ufeff' :: c :: l)) = separatorIn (trim (c :: l)) := by
    intro l
    rw [Blank.trim_cons_cons hmark hblank]
    exact separatorIn_cons (by decide)
  have hnewline : '\n' ≠ c := by
    rintro rfl
    cases hblank
  obtain ⟨l, rest, rfl, hl, hrest⟩ := exists_line cs
  have hfirst : '\n' ∉ c :: l := List.not_mem_cons_of_ne_of_not_mem hnewline hl
  have hwhole : '\n' ∉ '\ufeff' :: c :: l :=
    List.not_mem_cons_of_ne_of_not_mem (by decide) hfirst
  rw [separator_eq, separator_eq, ← List.cons_append, ← List.cons_append,
    firstData_of_isData hwhole (hdata l).2 hrest, firstData_of_isData hfirst (hdata l).1 hrest,
    hsame]

/-- A byte order mark right before data does not change the separator. -/
theorem separator_dropMark (h : IsMarkBeforeData text) :
    separator text = separator (dropMark text) := by
  match text, h with
  | [], _ => rfl
  | [m], _ =>
    by_cases hm : m = '\ufeff'
    · subst hm
      decide
    · rw [dropMark, if_neg hm]
  | m :: c :: cs, h =>
    by_cases hm : m = '\ufeff'
    · obtain ⟨hblank, hnumber⟩ := h hm
      rw [dropMark, if_pos hm, hm, separator_mark hblank hnumber]
    · rw [dropMark, if_neg hm]

/-- **The first record and the separator.** The reader finds its records with the separator of the
text, which is the one that is called for by the first of them, if the lines up to the first one
with data are to the reader what they look like. -/
theorem separator_firstRecord (hquote : '"' ∉ text) (hmark : IsMarkBeforeData text)
    (hlines : ∀ l ∈ leadingLines (lines (dropMark text)), IsOrderly l) :
    (ofText text).map (·.fields) =
        (recordTexts (separator text) text).map (fieldsOf (separator text)) ∧
      ∀ r ∈ (recordTexts (separator text) text).head?, separator text = separatorIn r := by
  refine ⟨map_fields_split (isLineEnd_separator text) hquote, fun r hr => ?_⟩
  rw [separator_dropMark hmark] at hr ⊢
  rw [recordTexts, List.head?_filter, find?_passages hlines] at hr
  split at hr
  · cases hr
  · rw [separator_eq, Option.some.inj hr]

/-- A marked line with data, among others. -/
def markedText : List Char := "\ufeff7 , 8\r\n# x\ty\n1,2".toList

theorem separator_firstRecord_markedText : '"' ∉ markedText ∧ IsMarkBeforeData markedText ∧
    (∀ l ∈ leadingLines (lines (dropMark markedText)), IsOrderly l) ∧
    recordTexts ',' markedText = ["7 , 8".toList, "1,2".toList] ∧
    (ofText markedText).map (·.fields) =
      (recordTexts (separator markedText) markedText).map (fieldsOf (separator markedText)) ∧
    ∀ r ∈ (recordTexts (separator markedText) markedText).head?,
      separator markedText = separatorIn r := by
  have hquote : '"' ∉ markedText := by decide
  have hmark : IsMarkBeforeData markedText := fun _ => by decide
  have hlines : ∀ l ∈ leadingLines (lines (dropMark markedText)), IsOrderly l := by decide
  exact ⟨hquote, hmark, hlines, by decide +kernel, separator_firstRecord hquote hmark hlines⟩

/-- A marked comment, a line with a carriage return inside, a line with commas only, and a comment
that is indented. -/
def strayTexts : List (List Char) :=
  ["\ufeff# a, b\n0 1\n".toList, "0 1\r2,3\n".toList, ",,\n0 1\n".toList, " # a,b\n0 1\n".toList]

/-- The first record can call for another separator than that of the text, by which it is found. -/
theorem separator_ne_of_stray :
    strayTexts.map (fun text => text.contains '"') = [false, false, false, false] ∧
      strayTexts.map separator = [',', ',', ',', ' '] ∧
      strayTexts.map (fun text => (recordTexts (separator text) text).head?) =
        [some "0 1".toList, some "0 1".toList, some "0 1".toList, some "# a,b".toList] ∧
      separatorIn "0 1".toList = ' ' ∧ separatorIn "# a,b".toList = ',' := by
  decide +kernel

end VertexSweep.Records
