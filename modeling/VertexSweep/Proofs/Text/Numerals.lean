import VertexSweep.Id
import VertexSweep.Proofs.Text.Layout
import VertexSweep.Text.Decimal
import VertexSweep.Text.Digit

/-!
# Numerals

A word is written as decimal digits, with leading zeros or without (`IsNumeral`). Such a text is
read as the word (`IsNumeral.readWord?_eq`), and it can be a field (`IsNumeral.isField`). The digits
of a word are one way to write it (`isNumeral_digits`).
-/

namespace VertexSweep

/-- The decimal texts of a word. -/
structure IsNumeral (w : UInt32) (cs : List Char) : Prop where
  ne_nil : cs ≠ []
  decimal : ∀ c ∈ cs, Digit.isDecimal c = true
  number : Digit.number 10 cs = w.toNat

instance (w : UInt32) (cs : List Char) : Decidable (IsNumeral w cs) :=
  decidable_of_iff
    (cs ≠ [] ∧ cs.all Digit.isDecimal = true ∧ Digit.number 10 cs = w.toNat)
    ⟨fun h => ⟨h.1, List.all_eq_true.1 h.2.1, h.2.2⟩,
      fun h => ⟨h.ne_nil, List.all_eq_true.2 h.decimal, h.number⟩⟩

namespace Decimal

variable {c : Char} {cs : List Char} {w : UInt32}

theorem digitValue?_of_isDecimal (hc : Digit.isDecimal c = true) :
    digitValue? c = some (Digit.value c) := by
  rw [Digit.value, if_pos hc, digitValue?, if_pos]
  simpa [Digit.isDecimal] using hc

theorem readMore?_of_isDecimal (hcs : ∀ c ∈ cs, Digit.isDecimal c = true) (n : Nat) :
    readMore? n cs = some (cs.foldl (fun n c => 10 * n + Digit.value c) n) := by
  induction cs generalizing n with
  | nil => rfl
  | cons c cs ih =>
    rw [readMore?, digitValue?_of_isDecimal (hcs c List.mem_cons_self), List.foldl_cons]
    exact ih (fun d hd => hcs d (List.mem_cons_of_mem c hd)) _

end Decimal

namespace IsNumeral

variable {c : Char} {cs : List Char} {w : UInt32}

theorem readWord?_eq (h : IsNumeral w cs) : Decimal.readWord? cs = some w := by
  have hplus : Decimal.dropPlus cs = cs := by
    cases cs with
    | nil => rfl
    | cons c cs =>
      refine if_neg fun heq => ?_
      have hc := h.decimal c List.mem_cons_self
      rw [heq] at hc
      exact absurd hc (by decide)
  have hread : Decimal.read? cs = some w.toNat := by
    rw [← h.number, Digit.number, ← Decimal.readMore?_of_isDecimal h.decimal]
    cases cs with
    | nil => exact absurd rfl h.ne_nil
    | cons c cs => rfl
  have hbound : w.toNat ≤ 4294967295 := by
    have hlt := w.toNat_lt
    omega
  simp [Decimal.readWord?, Decimal.readAtMost?, hplus, hread, hbound]

theorem isPlain_of_isDecimal (hc : Digit.isDecimal c = true) : Records.isPlain c = true := by
  have hdigits : ∀ d < 10, Records.isPlain (Decimal.digitChar d) = true := by decide
  simp only [Digit.isDecimal, Bool.and_eq_true, decide_eq_true_eq, Char.le_def,
    UInt32.le_iff_toNat_le] at hc
  have hlow : 48 ≤ c.toNat := hc.1
  have hhigh : c.toNat ≤ 57 := hc.2
  have hchar : Decimal.digitChar (c.toNat - 48) = c := by
    rw [Decimal.digitChar, Nat.add_sub_cancel' hlow, Char.ofNat_toNat]
  rw [← hchar]
  exact hdigits _ (by omega)

theorem isField (h : IsNumeral w cs) : Records.IsField cs :=
  ⟨h.ne_nil, fun c hc => isPlain_of_isDecimal (h.decimal c hc)⟩

end IsNumeral

/-- The digits of a word are a numeral. -/
theorem isNumeral_digits (w : UInt32) : IsNumeral w (Decimal.digits w.toNat) := by
  have hdigit : ∀ d < 10, Digit.isDecimal (Decimal.digitChar d) = true := by decide
  have hdecimal : ∀ n, ∀ c ∈ Decimal.digits n, Digit.isDecimal c = true := by
    intro n
    fun_induction Decimal.digits n with
    | case1 n small => simpa using hdigit n small
    | case2 n large ih =>
      intro c hc
      rcases List.mem_append.1 hc with hc | hc
      · exact ih c hc
      · rw [List.mem_singleton.1 hc]
        exact hdigit _ (Nat.mod_lt n (by decide))
  refine ⟨?_, hdecimal w.toNat, ?_⟩
  · obtain ⟨d, cs, -, hdigits⟩ := Decimal.digits_eq_cons w.toNat
    rw [hdigits]
    exact List.cons_ne_nil _ _
  · have hread := Decimal.readMore?_of_isDecimal (hdecimal w.toNat) 0
    rw [Decimal.readMore?_digits] at hread
    exact (Option.some.inj hread).symm

end VertexSweep
