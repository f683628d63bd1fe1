import Mathlib.Data.List.TakeWhile
import VertexSweep.Text.Records

/-!
# The fields of a line

The fields of a text on one line are what stands between its separators, trimmed, without what is
blank (`fieldsOf`). If two texts are joined by a separator, the fields are those of both
(`fieldsOf_append_cons_self`); white space around a text does not matter (`fieldsOf_trim`); and
there is no field exactly if there is nothing but white space and separators
(`fieldsOf_eq_nil_iff`).
-/

namespace VertexSweep

namespace Blank

variable {c : Char} {cs bs front back : List Char}

theorem trim_cons (h : isBlank c = true) : trim (c :: cs) = trim cs := by
  rw [trim, trimStart, List.dropWhile_cons_of_pos h, trim, trimStart]

theorem trim_append_left (h : ∀ c ∈ bs, isBlank c = true) : trim (bs ++ cs) = trim cs := by
  induction bs with
  | nil => rfl
  | cons b bs ih =>
    rw [List.cons_append, trim_cons (h b List.mem_cons_self),
      ih fun c hc => h c (List.mem_cons_of_mem b hc)]

theorem dropWhile_append_of_exists (h : ∃ c ∈ cs, isBlank c = false) (bs : List Char) :
    (cs ++ bs).dropWhile isBlank = cs.dropWhile isBlank ++ bs := by
  obtain ⟨c, hc, hblank⟩ := h
  have hne : (cs.dropWhile isBlank).isEmpty = false := by
    rw [List.isEmpty_eq_false_iff]
    exact fun hnil => by simp [List.dropWhile_eq_nil_iff.1 hnil c hc] at hblank
  rw [List.dropWhile_append, hne, if_neg Bool.false_ne_true]

theorem trimEnd_append_right (h : ∀ c ∈ bs, isBlank c = true) :
    trimEnd (cs ++ bs) = trimEnd cs := by
  rw [trimEnd, List.reverse_append, List.dropWhile_append_of_pos, trimEnd]
  exact fun c hc => h c (List.mem_reverse.1 hc)

theorem trim_eq_nil (h : ∀ c ∈ cs, isBlank c = true) : trim cs = [] := by
  have hstart : trim (cs ++ []) = trim [] := trim_append_left h
  rwa [List.append_nil] at hstart

theorem trim_append_right (h : ∀ c ∈ bs, isBlank c = true) : trim (cs ++ bs) = trim cs := by
  by_cases hcs : ∀ c ∈ cs, isBlank c = true
  · rw [trim_append_left hcs, trim_eq_nil h, trim_eq_nil hcs]
  · have hexists : ∃ c ∈ cs, isBlank c = false := by simpa using hcs
    rw [trim, trimStart, dropWhile_append_of_exists hexists, trimEnd_append_right h, trim,
      trimStart]

/-- A text is what is left of it when it is trimmed, between white space. -/
theorem exists_eq_append_trim (cs : List Char) : ∃ front back,
    (∀ c ∈ front, isBlank c = true) ∧ (∀ c ∈ back, isBlank c = true) ∧
      cs = front ++ trim cs ++ back := by
  refine ⟨cs.takeWhile isBlank, ((trimStart cs).reverse.takeWhile isBlank).reverse,
    fun c hc => (List.mem_takeWhile_imp hc), fun c hc => ?_, ?_⟩
  · exact List.mem_takeWhile_imp (List.mem_reverse.1 hc)
  · rw [List.append_assoc, trim, trimEnd, ← List.reverse_append, List.takeWhile_append_dropWhile,
      List.reverse_reverse, trimStart, List.takeWhile_append_dropWhile]

theorem trim_eq_nil_iff : trim cs = [] ↔ ∀ c ∈ cs, isBlank c = true := by
  refine ⟨fun h => ?_, trim_eq_nil⟩
  obtain ⟨front, back, hfront, hback, heq⟩ := exists_eq_append_trim cs
  rw [h, List.append_nil] at heq
  intro c hc
  rw [heq, List.mem_append] at hc
  exact hc.elim (hfront c) (hback c)

theorem mem_of_mem_trim (h : c ∈ trim cs) : c ∈ cs := by
  obtain ⟨front, back, -, -, heq⟩ := exists_eq_append_trim cs
  rw [heq]
  exact List.mem_append_left _ (List.mem_append_right _ h)

/-- A character that is not white space is not trimmed off. -/
theorem mem_trim (h : c ∈ cs) (hc : isBlank c = false) : c ∈ trim cs := by
  obtain ⟨front, back, hfront, hback, heq⟩ := exists_eq_append_trim cs
  rw [heq, List.mem_append, List.mem_append] at h
  rcases h with (h | h) | h
  · exact absurd (hfront c h) (by simp [hc])
  · exact h
  · exact absurd (hback c h) (by simp [hc])

theorem trim_eq_self (h : ∀ c ∈ cs, isBlank c = false) : trim cs = cs := by
  obtain ⟨front, back, hfront, hback, heq⟩ := exists_eq_append_trim cs
  have hno : ∀ bs ⊆ cs, (∀ c ∈ bs, isBlank c = true) → bs = [] := fun bs hsub hbs =>
    List.eq_nil_iff_forall_not_mem.2 fun c hc => by simpa [h c (hsub hc)] using hbs c hc
  have hempty : front = [] ∧ back = [] := by
    constructor
    · exact hno front (by rw [heq]; simp) hfront
    · exact hno back (by rw [heq]; simp) hback
  rwa [hempty.1, hempty.2, List.nil_append, List.append_nil, eq_comm] at heq

/-- What a text starts with is not trimmed off, unless it is white space. -/
theorem exists_trim_cons (h : isBlank c = false) (cs : List Char) :
    ∃ rest, trim (c :: cs) = c :: rest := by
  obtain ⟨front, back, hfront, hback, heq⟩ := exists_eq_append_trim (c :: cs)
  cases front with
  | cons b front =>
    rw [← (List.cons.inj heq).1] at hfront
    simpa [h] using hfront c List.mem_cons_self
  | nil =>
    cases htrim : trim (c :: cs) with
    | cons b rest =>
      rw [htrim] at heq
      exact ⟨rest, by rw [(List.cons.inj heq).1]⟩
    | nil =>
      rw [htrim, List.append_nil, List.nil_append] at heq
      rw [← heq] at hback
      simpa [h] using hback c List.mem_cons_self

theorem trim_cons_cons {b : Char} (hb : isBlank b = false) (hc : isBlank c = false) :
    trim (b :: c :: cs) = b :: trim (c :: cs) := by
  have hexists : ∃ d ∈ (c :: cs).reverse, isBlank d = false := ⟨c, by simp, hc⟩
  have hstart : ∀ {d : Char} (ds : List Char), isBlank d = false → trimStart (d :: ds) = d :: ds :=
    fun ds hd => List.dropWhile_cons_of_neg (by simp [hd])
  rw [trim, hstart _ hb, trimEnd, List.reverse_cons, dropWhile_append_of_exists hexists,
    List.reverse_append, trim, hstart _ hc, trimEnd]
  rfl

/-- What stands between characters that are not white space is not trimmed off. -/
theorem mem_trim_between {xs ys : List Char} (hxs : ∃ x ∈ xs, isBlank x = false)
    (hys : ∃ y ∈ ys, isBlank y = false) : c ∈ trim (xs ++ c :: ys) := by
  have hback : ∃ y ∈ ys.reverse, isBlank y = false := by simpa using hys
  rw [trim, trimStart, dropWhile_append_of_exists hxs, trimEnd, List.reverse_append,
    List.reverse_cons, List.append_assoc, dropWhile_append_of_exists hback]
  simp

end Blank

namespace Records

/-- The fields of a text on one line: what stands between separators, trimmed, and without the
empty ones. -/
def fieldsOf (sep : Char) (cs : List Char) : List (List Char) :=
  ((cs.splitOn sep).map Blank.trim).filter (!·.isEmpty)

open Blank (isBlank trim)

variable {sep c : Char} {cs xs ys bs f : List Char}

theorem fieldsOf_append_cons_self (sep : Char) (xs ys : List Char) :
    fieldsOf sep (xs ++ sep :: ys) = fieldsOf sep xs ++ fieldsOf sep ys := by
  simp only [fieldsOf, List.splitOn_append_cons_self, List.map_append, List.filter_append]

theorem fieldsOf_of_notMem (h : sep ∉ cs) : fieldsOf sep cs = [trim cs].filter (!·.isEmpty) := by
  rw [fieldsOf, List.splitOn_eq_singleton h, List.map_singleton]

/-- A text without a separator, or one up to its first separator and one behind it. -/
@[elab_as_elim]
theorem separated_induction {P : List Char → Prop} (sep : Char) (single : ∀ cs, sep ∉ cs → P cs)
    (joined : ∀ xs ys, sep ∉ xs → P ys → P (xs ++ sep :: ys)) (cs : List Char) : P cs := by
  by_cases h : sep ∈ cs
  · obtain ⟨xs, ys, rfl, hxs⟩ := List.eq_append_cons_of_mem h
    exact joined xs ys hxs (separated_induction sep single joined ys)
  · exact single cs h
termination_by cs.length
decreasing_by simp_all; omega

theorem fieldsOf_cons (h : isBlank c = true) : fieldsOf sep (c :: cs) = fieldsOf sep cs := by
  by_cases hc : c = sep
  · subst hc
    exact fieldsOf_append_cons_self c [] cs
  · cases hsplit : cs.splitOn sep with
    | nil => exact absurd hsplit (List.splitOn_ne_nil sep cs)
    | cons first rest =>
      rw [fieldsOf, List.splitOn_cons_eq_if_modifyHead, if_neg (by simpa using hc), hsplit,
        List.modifyHead_cons, List.map_cons, Blank.trim_cons h, fieldsOf, hsplit, List.map_cons]

theorem fieldsOf_concat (h : isBlank c = true) : fieldsOf sep (cs ++ [c]) = fieldsOf sep cs := by
  induction cs using separated_induction sep with
  | single cs hcs =>
    by_cases hc : c = sep
    · subst hc
      rw [fieldsOf_append_cons_self]
      exact List.append_nil _
    · have hsep : sep ∉ cs ++ [c] := by simp [hcs, Ne.symm hc]
      have hblank : ∀ d ∈ [c], isBlank d = true := by simpa using h
      rw [fieldsOf_of_notMem hsep, fieldsOf_of_notMem hcs, Blank.trim_append_right hblank]
  | joined xs ys _ ih =>
    rw [List.append_assoc, List.cons_append, fieldsOf_append_cons_self, ih,
      fieldsOf_append_cons_self]

theorem fieldsOf_append_left (h : ∀ c ∈ bs, isBlank c = true) :
    fieldsOf sep (bs ++ cs) = fieldsOf sep cs := by
  induction bs with
  | nil => rfl
  | cons b bs ih =>
    rw [List.cons_append, fieldsOf_cons (h b List.mem_cons_self),
      ih fun c hc => h c (List.mem_cons_of_mem b hc)]

theorem fieldsOf_append_right (h : ∀ c ∈ bs, isBlank c = true) :
    fieldsOf sep (cs ++ bs) = fieldsOf sep cs := by
  induction bs generalizing cs with
  | nil => rw [List.append_nil]
  | cons b bs ih =>
    rw [List.append_cons, ih fun c hc => h c (List.mem_cons_of_mem b hc),
      fieldsOf_concat (h b List.mem_cons_self)]

/-- White space around a text does not matter. -/
theorem fieldsOf_trim (sep : Char) (cs : List Char) : fieldsOf sep (trim cs) = fieldsOf sep cs := by
  obtain ⟨front, back, hfront, hback, heq⟩ := Blank.exists_eq_append_trim cs
  calc fieldsOf sep (trim cs)
    _ = fieldsOf sep (front ++ trim cs ++ back) := by
      rw [fieldsOf_append_right hback, fieldsOf_append_left hfront]
    _ = fieldsOf sep cs := by rw [← heq]

private theorem fieldsOf_eq_nil_of_notMem (hcs : sep ∉ cs) :
    fieldsOf sep cs = [] ↔ ∀ c ∈ cs, isBlank c = true ∨ c = sep := by
  have hne : ∀ c ∈ cs, c ≠ sep := fun c hc heq => hcs (heq ▸ hc)
  rw [fieldsOf_of_notMem hcs, forall₂_congr fun c hc => or_iff_left (hne c hc),
    ← Blank.trim_eq_nil_iff]
  simp

/-- There are no fields where there is nothing but white space and separators. -/
theorem fieldsOf_eq_nil_iff : fieldsOf sep cs = [] ↔ ∀ c ∈ cs, isBlank c = true ∨ c = sep := by
  induction cs using separated_induction sep with
  | single cs hcs => exact fieldsOf_eq_nil_of_notMem hcs
  | joined xs ys hxs ih =>
    rw [fieldsOf_append_cons_self, List.append_eq_nil_iff, fieldsOf_eq_nil_of_notMem hxs, ih]
    simp [or_imp, forall_and]

/-- A text without white space and separators is a field. -/
theorem fieldsOf_eq_self (hne : f ≠ []) (h : ∀ c ∈ f, isBlank c = false) (hsep : sep ∉ f) :
    fieldsOf sep f = [f] := by
  rw [fieldsOf_of_notMem hsep, Blank.trim_eq_self h]
  simp [hne]

end Records

end VertexSweep
