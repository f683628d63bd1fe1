import VertexSweep.Proofs.Text.Fields

/-!
# Where the records of a text are

A text without quotation marks can be cut into the texts of its records before one knows what
separates their fields: comments and line ends are skipped, and a record runs up to the next line
end (`passages`). The reader finds the fields of these texts, and on the lines on which the search
for them began (`split_eq`).
-/

namespace VertexSweep.Records

/-- Whether a character ends a record. -/
def isLineEnd (c : Char) : Bool := c == '\n' || c == '\r'

/-- The text of a record, with the line on which the search for it began. -/
structure Passage where
  start : Nat
  text : List Char
deriving DecidableEq, Repr

/-- The record in a passage, unless all of its fields are empty. -/
def Passage.record? (sep : Char) (p : Passage) : Option Record :=
  if fieldsOf sep p.text = [] then none else some ⟨p.start, fieldsOf sep p.text⟩

/-- The passages of a text without quotation marks. It begins on line `line`, and the search for the
first of them on line `start`. -/
def passages (line start : Nat) : List Char → List Passage
  | [] => []
  | c :: cs =>
    if c = '\n' then passages (line + 1) start cs
    else if c = '\r' then passages line start cs
    else if c = '#' then passages line start (cs.dropWhile (· != '\n'))
    else
      let rest := cs.dropWhile (!isLineEnd ·)
      let line := if rest.head? = some '\n' then line + 1 else line
      ⟨start, c :: cs.takeWhile (!isLineEnd ·)⟩ :: passages line line rest.tail
termination_by cs => cs.length
decreasing_by
  · exact Nat.lt_succ_self _
  · exact Nat.lt_succ_self _
  · exact Nat.lt_succ_of_le (List.length_dropWhile_le _ _)
  · rw [List.length_tail]
    exact Nat.lt_succ_of_le (Nat.le_trans (Nat.sub_le _ _) (List.length_dropWhile_le _ _))

variable {sep c e : Char} {cs rest : List Char} {r : Reader} {line start : Nat}

/-! ## Up to the end of a record -/

theorem isLineEnd_of_notMem (hnewline : '\n' ∉ cs) (hreturn : '\r' ∉ cs) :
    ∀ c ∈ cs, isLineEnd c = false := by
  intro c hc
  rw [isLineEnd, Bool.or_eq_false_iff, beq_eq_false_iff_ne, beq_eq_false_iff_ne]
  exact ⟨fun heq => hnewline (heq ▸ hc), fun heq => hreturn (heq ▸ hc)⟩

theorem isLineEnd_of_mem_takeWhile (hnewline : c ≠ '\n') (hreturn : c ≠ '\r') (cs : List Char) :
    ∀ d ∈ c :: cs.takeWhile (!isLineEnd ·), isLineEnd d = false := by
  intro d hd
  rcases List.mem_cons.1 hd with rfl | hd
  · simp [isLineEnd, hnewline, hreturn]
  · simpa using List.mem_takeWhile_imp hd

theorem isLineEnd_of_mem_head?_dropWhile :
    ∀ e ∈ (cs.dropWhile (!isLineEnd ·)).head?, isLineEnd e = true := by
  intro e he
  have hhead := List.head?_dropWhile_not (!isLineEnd ·) cs
  rw [show (cs.dropWhile (!isLineEnd ·)).head? = some e from he] at hhead
  simpa using hhead

namespace Reader

/-! ## One record -/

/-- A reader that has taken the given fields into a record and ends it. -/
def close (r : Reader) (fields : List (List Char)) : Reader :=
  { line := r.line
    start := r.line
    records := if fields = [] then r.records else ⟨r.start, fields⟩ :: r.records }

/-- Whether a reader is inside a record, and not between quotation marks. -/
def IsInside (r : Reader) : Prop := r.mode = .fieldStart ∨ r.mode = .bare

theorem endRecord_eq (r : Reader) : r.endRecord = r.close r.endField.fields.reverse := by
  simp [endRecord, close, endField]

theorem reverse_fields_endField (h : sep ∉ r.field) :
    r.endField.fields.reverse = r.fields.reverse ++ fieldsOf sep r.field.reverse := by
  rw [fieldsOf_of_notMem (by rwa [List.mem_reverse])]
  by_cases hempty : (Blank.trim r.field.reverse).isEmpty = true <;> simp [endField, hempty]

theorem close_endField (r : Reader) (fields : List (List Char)) :
    r.endField.close fields = r.close fields := rfl

theorem reverse_records_close (r : Reader) (sep : Char) (cs : List Char) :
    (r.close (fieldsOf sep cs)).records.reverse =
      r.records.reverse ++ [(⟨r.start, cs⟩ : Passage)].filterMap (Passage.record? sep) := by
  by_cases hfields : fieldsOf sep cs = [] <;> simp [close, Passage.record?, hfields]

/-- Inside a record, a character other than a quotation mark and a line end either separates two
fields or is part of one. -/
theorem IsInside.read_eq (hr : r.IsInside) (hquote : c ≠ '"') (hend : isLineEnd c = false) :
    r.read sep c = if c = sep then r.endField else r.take c .bare := by
  simp only [isLineEnd, Bool.or_eq_false_iff, beq_eq_false_iff_ne] at hend
  rcases hr with hr | hr <;>
    simp [read, hr, readFirst, readBare, hquote, hend.1, hend.2]

/-- What is left to read of a record, up to its end, gives the fields of the text. -/
theorem IsInside.foldl_read (hr : r.IsInside) (sep : Char) (hsep : sep ∉ r.field)
    (hcs : ∀ c ∈ cs, c ≠ '"' ∧ isLineEnd c = false) :
    (cs.foldl (read sep) r).IsInside ∧ (cs.foldl (read sep) r).endRecord =
      r.close (r.fields.reverse ++ fieldsOf sep (r.field.reverse ++ cs)) := by
  induction cs generalizing r with
  | nil =>
    refine ⟨hr, ?_⟩
    rw [List.foldl_nil, endRecord_eq, reverse_fields_endField hsep, List.append_nil]
  | cons c cs ih =>
    obtain ⟨hquote, hend⟩ := hcs c List.mem_cons_self
    rw [List.foldl_cons, hr.read_eq hquote hend]
    have hrest := fun d hd => hcs d (List.mem_cons_of_mem c hd)
    split
    · rename_i hc
      subst hc
      obtain ⟨hinside, hended⟩ := ih (r := r.endField) (.inl rfl) List.not_mem_nil hrest
      refine ⟨hinside, ?_⟩
      rw [hended, close_endField, reverse_fields_endField hsep, List.append_assoc,
        fieldsOf_append_cons_self]
      rfl
    · rename_i hc
      have htaken : sep ∉ (r.take c .bare).field := by
        simpa [take, hsep] using Ne.symm hc
      obtain ⟨hinside, hended⟩ := ih (r := r.take c .bare) (.inr rfl) htaken hrest
      refine ⟨hinside, ?_⟩
      rw [hended]
      simp [take, close]

theorem IsInside.finish_eq (hr : r.IsInside) : r.finish = r.endRecord.records.reverse := by
  rcases hr with hr | hr <;> simp [finish, hr]

/-! ## Between records -/

/-- A reader between two records. -/
structure IsIdle (r : Reader) : Prop where
  mode : r.mode = .outside ∨ r.mode = .afterReturn
  field : r.field = []
  fields : r.fields = []

namespace IsIdle

theorem read_newline (hr : r.IsIdle) :
    r.read sep '\n' = { r with mode := .outside, line := r.line + 1 } := by
  rcases hr.mode with hmode | hmode <;> simp [read, hmode, readOutside]

theorem read_return (hr : r.IsIdle) : r.read sep '\r' = { r with mode := .outside } := by
  rcases hr.mode with hmode | hmode <;> simp [read, hmode, readOutside]

theorem read_number (hr : r.IsIdle) : r.read sep '#' = { r with mode := .comment } := by
  rcases hr.mode with hmode | hmode <;> simp [read, hmode, readOutside]

/-- Any other character begins a record. -/
theorem read_eq (hr : r.IsIdle) (hquote : c ≠ '"') (hend : isLineEnd c = false)
    (hnumber : c ≠ '#') : r.read sep c = ({ r with mode := .fieldStart } : Reader).read sep c := by
  rw [IsInside.read_eq (r := { r with mode := .fieldStart }) (.inl rfl) hquote hend]
  simp only [isLineEnd, Bool.or_eq_false_iff, beq_eq_false_iff_ne] at hend
  rcases hr.mode with hmode | hmode <;>
    simp [read, hmode, readOutside, readFirst, readBare, hquote, hend, hnumber, endField, take]

theorem finish_eq (hr : r.IsIdle) : r.finish = r.records.reverse := by
  rcases hr.mode with hmode | hmode <;> simp [finish, hmode]

end IsIdle

/-- The next line end ends a record. -/
theorem IsInside.read_end (hr : r.IsInside) (hsep : isLineEnd sep = false)
    (hc : isLineEnd c = true) :
    (r.read sep c).IsIdle ∧ (r.read sep c).records = r.endRecord.records ∧
      (r.read sep c).line = (if c = '\n' then r.line + 1 else r.line) ∧
      (r.read sep c).start = (r.read sep c).line := by
  have hne : c ≠ sep := fun heq => by simp [← heq, hc] at hsep
  simp only [isLineEnd, Bool.or_eq_true, beq_iff_eq] at hc
  rcases hc with rfl | rfl
  · have hread : r.read sep '\n' =
        { r.endRecord with line := r.line + 1, start := r.line + 1 } := by
      rcases hr with hr | hr <;>
        simp [read, hr, readFirst, readBare, hne, endRecord, endField]
    rw [hread]
    exact ⟨⟨.inl rfl, rfl, rfl⟩, rfl, rfl, rfl⟩
  · have hread : r.read sep '\r' = { r.endRecord with mode := .afterReturn } := by
      rcases hr with hr | hr <;> simp [read, hr, readFirst, readBare, hne]
    rw [hread]
    exact ⟨⟨.inr rfl, rfl, rfl⟩, rfl, rfl, rfl⟩

/-- A record up to its end. -/
theorem IsIdle.foldl_read (hr : r.IsIdle) (sep : Char) (hquote : '"' ∉ c :: cs)
    (hnumber : c ≠ '#') (hcs : ∀ d ∈ c :: cs, isLineEnd d = false) :
    ((c :: cs).foldl (read sep) r).IsInside ∧
      ((c :: cs).foldl (read sep) r).endRecord = r.close (fieldsOf sep (c :: cs)) := by
  have hne : ∀ d ∈ c :: cs, d ≠ '"' := fun d hd heq => hquote (heq ▸ hd)
  rw [List.foldl_cons, hr.read_eq (hne c List.mem_cons_self) (hcs c List.mem_cons_self) hnumber,
    ← List.foldl_cons]
  have hfirst : IsInside { r with mode := .fieldStart } := .inl rfl
  obtain ⟨hinside, hended⟩ := hfirst.foldl_read sep (by simp [hr.field]) fun d hd =>
    ⟨hne d hd, hcs d hd⟩
  refine ⟨hinside, ?_⟩
  rw [hended]
  simp [hr.field, hr.fields, close]

/-- A record and the character that ends it. -/
theorem IsIdle.foldl_read_end (hr : r.IsIdle) (hsep : isLineEnd sep = false)
    (hquote : '"' ∉ c :: cs) (hnumber : c ≠ '#') (hcs : ∀ d ∈ c :: cs, isLineEnd d = false)
    (he : isLineEnd e = true) :
    let r' := ((c :: cs).foldl (read sep) r).read sep e
    r'.IsIdle ∧ r'.records.reverse =
        r.records.reverse ++ [(⟨r.start, c :: cs⟩ : Passage)].filterMap (Passage.record? sep) ∧
      r'.line = (if e = '\n' then r.line + 1 else r.line) ∧ r'.start = r'.line := by
  obtain ⟨hinside, hended⟩ := hr.foldl_read sep hquote hnumber hcs
  obtain ⟨hidle, hrecords, hline, hstart⟩ := hinside.read_end hsep he
  have hsame : ((c :: cs).foldl (read sep) r).endRecord.line = r.line := by rw [hended]; rfl
  refine ⟨hidle, ?_, ?_, hstart⟩
  · rw [hrecords, hended, reverse_records_close]
  · rw [hline, show ((c :: cs).foldl (read sep) r).line = r.line from hsame]

theorem foldl_read_comment (hr : r.mode = .comment) (hcs : '\n' ∉ cs) :
    cs.foldl (read sep) r = r := by
  induction cs with
  | nil => rfl
  | cons c cs ih =>
    have hc : c ≠ '\n' := fun heq => hcs (heq ▸ List.mem_cons_self)
    rw [List.foldl_cons, show r.read sep c = r by simp [read, hr, hc]]
    exact ih fun h => hcs (List.mem_cons_of_mem c h)

/-- What follows a comment is read as if there was none. -/
theorem IsIdle.finish_comment (hr : r.IsIdle) (cs : List Char) :
    (cs.foldl (read sep) { r with mode := .comment }).finish =
      ((cs.dropWhile (· != '\n')).foldl (read sep) r).finish := by
  have hskipped : '\n' ∉ cs.takeWhile (· != '\n') := fun h => by
    simpa using List.mem_takeWhile_imp h
  rw [← List.takeWhile_append_dropWhile (p := (· != '\n')) (l := cs), List.foldl_append,
    foldl_read_comment rfl hskipped, List.takeWhile_append_dropWhile]
  cases hrest : cs.dropWhile (· != '\n') with
  | nil => exact hr.finish_eq.symm
  | cons e rest =>
    have he : e = '\n' := by
      simpa [hrest] using List.head_dropWhile_not (p := (· != '\n')) (l := cs) (by simp [hrest])
    subst he
    rw [List.foldl_cons, List.foldl_cons, hr.read_newline]
    rfl

/-- A record and what follows it, if the rest behind the line end is read as it should be. -/
theorem IsIdle.finish_record (hr : r.IsIdle) (hsep : isLineEnd sep = false)
    (hquote : '"' ∉ c :: cs) (hnumber : c ≠ '#') (hcs : ∀ d ∈ c :: cs, isLineEnd d = false)
    (hrest : ∀ e ∈ rest.head?, isLineEnd e = true)
    (hline : line = if rest.head? = some '\n' then r.line + 1 else r.line)
    (ih : ∀ {r' : Reader}, r'.IsIdle → r'.line = line → r'.start = line →
      (rest.tail.foldl (read sep) r').finish = r'.records.reverse ++
        (passages line line rest.tail).filterMap (Passage.record? sep)) :
    ((c :: cs ++ rest).foldl (read sep) r).finish = r.records.reverse ++
      (⟨r.start, c :: cs⟩ :: passages line line rest.tail).filterMap (Passage.record? sep) := by
  change _ = _ ++ ([(⟨r.start, c :: cs⟩ : Passage)] ++ passages line line rest.tail).filterMap _
  rw [List.foldl_append, List.filterMap_append, ← List.append_assoc]
  cases rest with
  | nil =>
    obtain ⟨hinside, hended⟩ := hr.foldl_read sep hquote hnumber hcs
    rw [List.foldl_nil, hinside.finish_eq, hended, reverse_records_close, List.tail_nil, passages]
    exact (List.append_nil _).symm
  | cons e rest =>
    obtain ⟨hidle, hrecords, hread, hstart⟩ :=
      hr.foldl_read_end hsep hquote hnumber hcs (hrest e rfl)
    rw [List.foldl_cons, ← hrecords]
    have hsame : line = if e = '\n' then r.line + 1 else r.line := by simpa using hline
    exact ih hidle (hread.trans hsame.symm) (hstart.trans (hread.trans hsame.symm))

/-- **The reader finds the records in the passages.** -/
theorem IsIdle.finish_foldl (hr : r.IsIdle) (hsep : isLineEnd sep = false)
    (hline : r.line = line) (hstart : r.start = start)
    (hquote : ∀ p ∈ passages line start cs, '"' ∉ p.text) :
    (cs.foldl (read sep) r).finish =
      r.records.reverse ++ (passages line start cs).filterMap (Passage.record? sep) := by
  fun_induction passages line start cs generalizing r with
  | case1 =>
    rw [List.foldl_nil, hr.finish_eq]
    exact (List.append_nil _).symm
  | case2 line start cs ih =>
    rw [List.foldl_cons, hr.read_newline]
    exact ih ⟨.inl rfl, hr.field, hr.fields⟩ (by rw [hline]) hstart hquote
  | case3 line start cs _ ih =>
    rw [List.foldl_cons, hr.read_return]
    exact ih ⟨.inl rfl, hr.field, hr.fields⟩ hline hstart hquote
  | case4 line start cs _ _ ih =>
    rw [List.foldl_cons, hr.read_number, hr.finish_comment]
    exact ih hr hline hstart hquote
  | case5 line start c cs hnewline hreturn hnumber rest =>
    rename_i ih
    have hsplit : c :: cs = c :: cs.takeWhile (!isLineEnd ·) ++ rest :=
      congrArg (c :: ·) List.takeWhile_append_dropWhile.symm
    rw [hsplit, ← hstart]
    exact hr.finish_record hsep (hquote _ List.mem_cons_self) hnumber
      (isLineEnd_of_mem_takeWhile hnewline hreturn cs) isLineEnd_of_mem_head?_dropWhile
      (by rw [hline]; rfl) fun hidle hline hstart => ih hidle hline hstart fun p hp =>
        hquote p (List.mem_cons_of_mem _ hp)

end Reader

/-- What the reader makes of a text in whose records there is no quotation mark. -/
theorem split_eq {text : List Char} (hsep : isLineEnd sep = false)
    (hquote : ∀ p ∈ passages 1 1 (dropMark text), '"' ∉ p.text) :
    split sep text = (passages 1 1 (dropMark text)).filterMap (Passage.record? sep) :=
  Reader.IsIdle.finish_foldl (r := {}) ⟨.inl rfl, rfl, rfl⟩ hsep rfl rfl hquote

theorem mem_of_mem_passages {p : Passage} (hp : p ∈ passages line start cs) (hc : c ∈ p.text) :
    c ∈ cs := by
  fun_induction passages line start cs with
  | case1 => exact absurd hp List.not_mem_nil
  | case2 line start cs ih => exact List.mem_cons_of_mem _ (ih hp)
  | case3 line start cs _ ih => exact List.mem_cons_of_mem _ (ih hp)
  | case4 line start cs _ _ ih =>
    exact List.mem_cons_of_mem _ (List.dropWhile_subset _ (ih hp))
  | case5 line start d cs _ _ _ rest =>
    rename_i ih
    rcases List.mem_cons.1 hp with rfl | hp
    · exact List.cons_subset_cons d (List.takeWhile_subset _) hc
    · exact List.mem_cons_of_mem d (List.dropWhile_subset _ (List.mem_of_mem_tail (ih hp)))

end VertexSweep.Records
