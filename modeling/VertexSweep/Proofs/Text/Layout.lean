import VertexSweep.Proofs.Text.Lines

/-!
# Written records

How records can be laid out in a text: one on each line, with a separator and any number of spaces
between two fields, among blank lines and comments, each line ended in either way (`Layout`). The
separator of such a text is the one that it is written with, and its records are those that are
written (`Layout.ofText`).
-/

namespace VertexSweep

namespace Records

open Blank (isBlank trim)

/-- The characters that can separate fields. -/
def separators : List Char := ['\t', ',', ' ']

/-- Whether a character can stand anywhere in a field that is written as it is. -/
def isPlain (c : Char) : Bool := !isBlank c && !([',', '"', '#', '\ufeff'].contains c)

/-- The characters with a meaning of their own, other than separators. -/
def special : List Char := ['\n', '\r', '"', '#', '\ufeff']

/-- Fields that are written as they are. -/
structure IsField (f : List Char) : Prop where
  ne_nil : f ≠ []
  plain : ∀ c ∈ f, isPlain c = true

instance (f : List Char) : Decidable (IsField f) :=
  decidable_of_iff (f ≠ [] ∧ f.all isPlain = true)
    ⟨fun h => ⟨h.1, List.all_eq_true.1 h.2⟩, fun h => ⟨h.ne_nil, List.all_eq_true.2 h.plain⟩⟩

def IsPadding (cs : List Char) : Prop := ∀ c ∈ cs, c = ' '

instance (cs : List Char) : Decidable (IsPadding cs) :=
  decidable_of_iff (cs.all (· == ' ') = true) (by simp [IsPadding])

/-- How fields are written on a line: separated, and each with any number of spaces around it. -/
inductive Spelled (sep : Char) : List (List Char) → List Char → Prop
  | one {f front back : List Char} (hfront : IsPadding front) (hf : IsField f)
      (hback : IsPadding back) : Spelled sep [f] (front ++ f ++ back)
  | more {f front back : List Char} {fs : List (List Char)} {cs : List Char}
      (hfront : IsPadding front) (hf : IsField f) (hback : IsPadding back) (h : Spelled sep fs cs) :
      Spelled sep (f :: fs) (front ++ f ++ back ++ sep :: cs)

/-- The lines of a text with records, and the fields of the record on the line if there is one. A
record has two fields or more. -/
inductive IsLine (sep : Char) : Option (List (List Char)) → List Char → Prop
  | blank {l : List Char} (h : ∀ c ∈ l, isBlank c = true ∧ isLineEnd c = false) : IsLine sep none l
  | comment {l : List Char} (h : '\n' ∉ l) : IsLine sep none ('#' :: l)
  | record {f g : List Char} {fs : List (List Char)} {l : List Char}
      (h : Spelled sep (f :: g :: fs) l) : IsLine sep (some (f :: g :: fs)) l

/-- How records are written line by line. The end of the last line may be missing. -/
inductive Layout (sep : Char) : List (List (List Char)) → List Char → Prop
  | last {fs? : Option (List (List Char))} {l : List Char} (hl : IsLine sep fs? l) :
      Layout sep fs?.toList l
  | line {fs? : Option (List (List Char))} {l : List Char} {records : List (List (List Char))}
      {text : List Char} (hl : IsLine sep fs? l) (e : LineEnd) (h : Layout sep records text) :
      Layout sep (fs?.toList ++ records) (l ++ e.chars ++ text)

variable {sep c : Char} {f g l cs text front back : List Char} {fs : List (List Char)}
  {fs? : Option (List (List Char))} {records : List (List (List Char))} {line start : Nat}
  {ps : List Passage}

/-! ## Fields on a line -/

theorem isBlank_of_isPlain (hc : isPlain c = true) : isBlank c = false := by
  simp only [isPlain, Bool.and_eq_true, Bool.not_eq_true'] at hc
  exact hc.1

theorem IsField.isBlank (hf : IsField f) (hc : c ∈ f) : isBlank c = false :=
  isBlank_of_isPlain (hf.plain c hc)

theorem IsPadding.isBlank (h : IsPadding cs) : ∀ c ∈ cs, isBlank c = true := fun c hc => by
  rw [h c hc]
  decide

theorem notMem_of_isPlain (hc : isPlain c = true) (hsep : sep ∈ separators) : c ≠ sep := by
  rintro rfl
  simp only [separators, List.mem_cons, List.not_mem_nil, or_false] at hsep
  rcases hsep with rfl | rfl | rfl <;> exact absurd hc (by decide)

theorem fieldsOf_padded (hfront : IsPadding front) (hf : IsField f) (hback : IsPadding back)
    (hsep : sep ∈ separators) : fieldsOf sep (front ++ f ++ back) = [f] := by
  rw [fieldsOf_append_right hback.isBlank, fieldsOf_append_left hfront.isBlank]
  exact fieldsOf_eq_self hf.ne_nil (fun c hc => hf.isBlank hc) fun hmem =>
    notMem_of_isPlain (hf.plain sep hmem) hsep rfl

namespace Spelled

theorem fieldsOf_eq (h : Spelled sep fs cs) (hsep : sep ∈ separators) : fieldsOf sep cs = fs := by
  induction h with
  | one hfront hf hback => exact fieldsOf_padded hfront hf hback hsep
  | more hfront hf hback _ ih =>
    rw [fieldsOf_append_cons_self, fieldsOf_padded hfront hf hback hsep, ih]
    rfl

/-- The characters on a line with fields. -/
theorem of_mem (h : Spelled sep fs cs) (hc : c ∈ cs) : c = sep ∨ c = ' ' ∨ isPlain c = true := by
  have hpadded : ∀ {front f back : List Char}, IsPadding front → IsField f → IsPadding back →
      c ∈ front ++ f ++ back → c = ' ' ∨ isPlain c = true := by
    intro front f back hfront hf hback hmem
    simp only [List.mem_append] at hmem
    rcases hmem with (hmem | hmem) | hmem
    · exact .inl (hfront c hmem)
    · exact .inr (hf.plain c hmem)
    · exact .inl (hback c hmem)
  induction h with
  | one hfront hf hback => exact .inr (hpadded hfront hf hback hc)
  | more hfront hf hback _ ih =>
    rcases List.mem_append.1 hc with hc | hc
    · exact .inr (hpadded hfront hf hback hc)
    · rcases List.mem_cons.1 hc with hc | hc
      · exact .inl hc
      · exact ih hc

/-- There is something other than white space on a line with fields. -/
theorem exists_isPlain (h : Spelled sep fs cs) : ∃ c ∈ cs, isPlain c = true := by
  have hfield : ∀ {f : List Char}, IsField f → ∃ c ∈ f, isPlain c = true := fun hf =>
    ⟨_, List.head_mem hf.ne_nil, hf.plain _ (List.head_mem hf.ne_nil)⟩
  cases h with
  | one _ hf _ | more _ hf _ _ =>
    obtain ⟨c, hc, hplain⟩ := hfield hf
    exact ⟨c, by simp [hc], hplain⟩

theorem notMem_special (h : Spelled sep fs cs) (hsep : sep ∈ separators) (hc : c ∈ special) :
    c ∉ cs := by
  have hplain : ∀ c ∈ special, isPlain c = false ∧ c ≠ ' ' := by
    simp only [special, List.forall_mem_cons]
    exact ⟨by decide, by decide, by decide, by decide, by decide, List.forall_mem_nil _⟩
  have hseparators : ∀ sep ∈ separators, sep ∉ special := by
    simp only [separators, List.forall_mem_cons]
    exact ⟨by decide, by decide, by decide, List.forall_mem_nil _⟩
  intro hmem
  rcases h.of_mem hmem with rfl | rfl | hc'
  · exact hseparators c hsep hc
  · exact (hplain ' ' hc).2 rfl
  · exact absurd hc' (by simp [(hplain c hc).1])

theorem isLineEnd_eq_false (h : Spelled sep fs cs) (hsep : sep ∈ separators) :
    ∀ c ∈ cs, isLineEnd c = false :=
  isLineEnd_of_notMem (h.notMem_special hsep (by decide)) (h.notMem_special hsep (by decide))

theorem isSkipped_eq_false (h : Spelled sep fs cs) (hsep : sep ∈ separators) :
    isSkipped cs = false := by
  obtain ⟨c, hc, -⟩ := h.exists_isPlain
  cases cs with
  | nil => exact absurd hc List.not_mem_nil
  | cons d cs =>
    have hne : d ≠ '#' := by
      rintro rfl
      exact h.notMem_special hsep (by decide) List.mem_cons_self
    simp [isSkipped, hne]

theorem isData_eq_true (h : Spelled sep fs cs) (hsep : sep ∈ separators) : isData cs = true := by
  obtain ⟨c, hc, hplain⟩ := h.exists_isPlain
  have hmem : c ∈ trim cs := Blank.mem_trim hc (isBlank_of_isPlain hplain)
  have hnumber : (trim cs).head? ≠ some '#' := fun heq =>
    h.notMem_special hsep (by decide) (Blank.mem_of_mem_trim (List.mem_of_mem_head? heq))
  rw [isData, Bool.and_eq_true, bne_iff_ne, Bool.not_eq_true', List.isEmpty_eq_false_iff]
  exact ⟨List.ne_nil_of_mem hmem, hnumber⟩

/-- The separator of a line with two fields or more is the one that it is written with. -/
theorem separatorIn_trim (h : Spelled sep (f :: g :: fs) cs) (hsep : sep ∈ separators) :
    separatorIn (trim cs) = sep := by
  have hmem : sep ∈ trim cs := by
    cases h with
    | more hfront hf hback h =>
      obtain ⟨c, hc, hplain⟩ := h.exists_isPlain
      refine Blank.mem_trim_between ?_ ⟨c, hc, isBlank_of_isPlain hplain⟩
      exact ⟨_, by simp [List.head_mem hf.ne_nil], hf.isBlank (List.head_mem hf.ne_nil)⟩
  have hother : ∀ c ∈ ['\t', ','], c ≠ sep → c ∉ trim cs := by
    intro c hc hne hmem
    rcases h.of_mem (Blank.mem_of_mem_trim hmem) with heq | heq | hplain
    · exact hne heq
    · rw [heq] at hc
      exact absurd hc (by decide)
    · have hno : ∀ c ∈ ['\t', ','], isPlain c = false := by
        simp only [List.forall_mem_cons]
        exact ⟨by decide, by decide, List.forall_mem_nil _⟩
      exact absurd hplain (by simp [hno c hc])
  simp only [separators, List.mem_cons, List.not_mem_nil, or_false] at hsep
  rcases hsep with rfl | rfl | rfl
  · simp [separatorIn, hmem]
  · simp [separatorIn, hmem, hother '\t' (by decide) (by decide)]
  · simp [separatorIn, hother '\t' (by decide) (by decide), hother ',' (by decide) (by decide)]

end Spelled

/-! ## Lines -/

/-- The fields of the records in passages. -/
def fieldsIn (sep : Char) (ps : List Passage) : List (List (List Char)) :=
  (ps.filterMap (Passage.record? sep)).map (·.fields)

theorem fieldsIn_append (sep : Char) (ps qs : List Passage) :
    fieldsIn sep (ps ++ qs) = fieldsIn sep ps ++ fieldsIn sep qs := by
  simp [fieldsIn]

theorem fieldsIn_singleton (sep : Char) (p : Passage) :
    fieldsIn sep [p] = [fieldsOf sep p.text].filter (· ≠ []) := by
  by_cases h : fieldsOf sep p.text = [] <;> simp [fieldsIn, Passage.record?, h]

namespace IsLine

theorem notMem_newline (hl : IsLine sep fs? l) (hsep : sep ∈ separators) : '\n' ∉ l := by
  cases hl with
  | blank h => exact fun hmem => by simpa [isLineEnd] using (h _ hmem).2
  | comment h => simpa using h
  | record h => exact h.notMem_special hsep (by decide)

/-- What is found on a line does not depend on what follows it. -/
theorem exists_passages (hl : IsLine sep fs? l) (hsep : sep ∈ separators) (line start : Nat) :
    ∃ ps, passages line start l = ps ∧ fieldsIn sep ps = fs?.toList ∧ (∀ p ∈ ps, '"' ∉ p.text) ∧
      ∀ (e : LineEnd) text, ∃ next,
        passages line start (l ++ e.chars ++ text) = ps ++ passages (line + 1) next text := by
  have hnewline := hl.notMem_newline hsep
  by_cases hskipped : isSkipped l = true
  · have hnone : fs? = none := by
      cases hl with
      | blank | comment => rfl
      | record h => exact absurd hskipped (by simp [h.isSkipped_eq_false hsep])
    rw [hnone]
    exact ⟨[], passages_of_isSkipped hnewline hskipped, rfl, by simp, fun e text =>
      ⟨start, passages_append_of_isSkipped e hnewline hskipped⟩⟩
  · rw [Bool.not_eq_true] at hskipped
    have hfacts : (∀ c ∈ l, isLineEnd c = false) ∧ '"' ∉ l ∧
        [fieldsOf sep l].filter (· ≠ []) = fs?.toList := by
      cases hl with
      | blank h =>
        have hnil : fieldsOf sep l = [] := fieldsOf_eq_nil_iff.2 fun c hc => .inl (h c hc).1
        exact ⟨fun c hc => (h c hc).2, fun hmem => absurd (h _ hmem).1 (by decide), by simp [hnil]⟩
      | comment h => cases hskipped
      | record h =>
        exact ⟨h.isLineEnd_eq_false hsep, h.notMem_special hsep (by decide),
          by simp [h.fieldsOf_eq hsep]⟩
    obtain ⟨hends, hquote, hfields⟩ := hfacts
    refine ⟨[⟨start, l⟩], passages_singleton hends hskipped, ?_, ?_, fun e text =>
      ⟨e.next line, passages_append e hends hskipped⟩⟩
    · rw [fieldsIn_singleton, hfields]
    · simpa using hquote

theorem head?_ne_mark (hl : IsLine sep fs? l) (hsep : sep ∈ separators) :
    l.head? ≠ some '\ufeff' := by
  intro heq
  have hmem := List.mem_of_mem_head? heq
  cases hl with
  | blank h => exact absurd (h _ hmem).1 (by decide)
  | comment h => exact absurd (Option.some.inj heq) (by decide)
  | record h => exact h.notMem_special hsep (by decide) hmem

theorem isData_eq (hl : IsLine sep fs? l) (hsep : sep ∈ separators) : isData l = fs?.isSome := by
  cases hl with
  | blank h => rw [isData, Blank.trim_eq_nil fun c hc => (h c hc).1]; rfl
  | @comment l h =>
    obtain ⟨rest, hrest⟩ := Blank.exists_trim_cons (c := '#') (by decide) l
    rw [isData, hrest]
    rfl
  | record h => rw [h.isData_eq_true hsep]; rfl

theorem separatorIn_trim (hl : IsLine sep (some fs) l) (hsep : sep ∈ separators) :
    separatorIn (trim l) = sep := by
  cases hl with
  | record h => exact h.separatorIn_trim hsep

theorem of_none {sep' : Char} (hl : IsLine sep none l) : IsLine sep' none l := by
  cases hl with
  | blank h => exact .blank h
  | comment h => exact .comment h

end IsLine

/-! ## Texts -/

theorem separatorIn_mem (l : List Char) : separatorIn l ∈ separators := by
  unfold separatorIn
  split
  · decide
  · split <;> decide

theorem dropMark_of_head? (h : text.head? ≠ some '\ufeff') : dropMark text = text := by
  cases text with
  | nil => rfl
  | cons c text => exact if_neg fun heq => h (congrArg some heq)

namespace Layout

/-- Without records it does not matter what would separate fields. -/
theorem of_nil {sep' : Char} (h : Layout sep [] text) : Layout sep' [] text := by
  generalize hrecords : [] = records at h
  induction h with
  | @last fs? l hl =>
    cases fs? with
    | none => exact .last hl.of_none
    | some fs => cases hrecords
  | @line fs? l records text hl e h ih =>
    cases fs? with
    | none => exact .line hl.of_none e (ih hrecords)
    | some fs => cases hrecords

theorem dropMark_eq (h : Layout sep records text) (hsep : sep ∈ separators) :
    dropMark text = text := by
  apply dropMark_of_head?
  cases h with
  | last hl => exact hl.head?_ne_mark hsep
  | @line fs? l records text hl e h =>
    cases l with
    | nil => cases e <;> exact fun heq => absurd (Option.some.inj heq) (by decide)
    | cons c l => exact hl.head?_ne_mark hsep

theorem passages_eq (h : Layout sep records text) (hsep : sep ∈ separators) (line start : Nat) :
    fieldsIn sep (passages line start text) = records ∧
      ∀ p ∈ passages line start text, '"' ∉ p.text := by
  induction h generalizing line start with
  | last hl =>
    obtain ⟨ps, hps, hfields, hquote, -⟩ := hl.exists_passages hsep line start
    rw [hps]
    exact ⟨hfields, hquote⟩
  | line hl e h ih =>
    obtain ⟨ps, -, hfields, hquote, happend⟩ := hl.exists_passages hsep line start
    obtain ⟨next, hnext⟩ := happend e _
    obtain ⟨ihfields, ihquote⟩ := ih (line + 1) next
    rw [hnext, fieldsIn_append, hfields, ihfields]
    exact ⟨rfl, fun p hp => (List.mem_append.1 hp).elim (hquote p) (ihquote p)⟩

/-- The separator is read off the first record. -/
theorem separator_eq (h : Layout sep records text) (hsep : sep ∈ separators)
    (hrecords : records ≠ []) : separator text = sep := by
  rw [Records.separator_eq]
  induction h with
  | @last fs? l hl =>
    rw [firstData_of_notMem (hl.notMem_newline hsep), hl.isData_eq hsep]
    cases fs? with
    | none => exact absurd rfl hrecords
    | some fs => exact hl.separatorIn_trim hsep
  | @line fs? l records text hl e h ih =>
    rw [firstData_line e (hl.notMem_newline hsep), hl.isData_eq hsep]
    cases fs? with
    | none => exact ih hrecords
    | some fs => exact hl.separatorIn_trim hsep

/-- **The records of a text are those that are written in it.** -/
theorem ofText (h : Layout sep records text) (hsep : sep ∈ separators) :
    (ofText text).map (·.fields) = records := by
  have hsplit : ∀ {sep : Char}, sep ∈ separators → Layout sep records text →
      (split sep text).map (·.fields) = records := by
    intro sep hsep h
    obtain ⟨hfields, hquote⟩ := h.passages_eq hsep 1 1
    have hend : ∀ sep ∈ separators, isLineEnd sep = false := by simp [separators, isLineEnd]
    rw [split_eq (hend sep hsep) (by rwa [h.dropMark_eq hsep]), h.dropMark_eq hsep]
    exact hfields
  by_cases hrecords : records = []
  · subst hrecords
    exact hsplit (separatorIn_mem _) h.of_nil
  · rw [Records.ofText, h.separator_eq hsep hrecords]
    exact hsplit hsep h

end Layout

end Records

end VertexSweep
