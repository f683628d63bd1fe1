/-! Decimal numerals. `digits` writes a number without leading zeros; `read?` accepts any
non-empty run of ASCII digits, so leading zeros are read and dropped; `readAtMost?` also accepts
one leading plus sign and refuses numbers above a bound. What is written is read back:
`read?_digits`, and `readWord?_digits` for words. -/

namespace VertexSweep.Decimal

/-- The character of a digit below ten. -/
def digitChar (d : Nat) : Char := Char.ofNat (48 + d)

/-- The decimal digits of `n`, most significant first; zero has one digit. -/
def digits (n : Nat) : List Char :=
  if n < 10 then [digitChar n] else digits (n / 10) ++ [digitChar (n % 10)]
termination_by n
decreasing_by omega

/-- The decimal text of `n`. -/
def text (n : Nat) : String := String.ofList (digits n)

/-- The value of an ASCII digit. -/
def digitValue? (c : Char) : Option Nat :=
  if '0' ≤ c ∧ c ≤ '9' then some (c.toNat - 48) else none

/-- Continues reading the number `n` through further digits. -/
def readMore? (n : Nat) : List Char → Option Nat
  | [] => some n
  | c :: cs => do readMore? (10 * n + (← digitValue? c)) cs

/-- The number written by a non-empty run of digits. -/
def read? : List Char → Option Nat
  | [] => none
  | cs => readMore? 0 cs

/-- The text without the plus sign that it may start with. -/
def dropPlus : List Char → List Char
  | [] => []
  | c :: cs => if c = '+' then cs else c :: cs

/-- A number of at most `bound`, written in digits after at most one plus sign. -/
def readAtMost? (bound : Nat) (cs : List Char) : Option Nat := do
  let n ← read? (dropPlus cs)
  if n ≤ bound then some n else none

/-- A 32-bit number, written in digits after at most one plus sign. -/
def readWord? (cs : List Char) : Option UInt32 :=
  (readAtMost? 4294967295 cs).map UInt32.ofNat

theorem digitValue?_digitChar : ∀ d < 10, digitValue? (digitChar d) = some d := by decide

theorem digitChar_ne_plus : ∀ d < 10, digitChar d ≠ '+' := by decide

theorem readMore?_append {n : Nat} {cs ds : List Char} :
    readMore? n (cs ++ ds) = (readMore? n cs).bind (readMore? · ds) := by
  induction cs generalizing n with
  | nil => rfl
  | cons c cs ih =>
    simp only [List.cons_append, readMore?]
    cases digitValue? c with
    | none => rfl
    | some d => exact ih

theorem readMore?_digits (n : Nat) : readMore? 0 (digits n) = some n := by
  fun_induction digits n with
  | case1 n small => simp [readMore?, digitValue?_digitChar n small]
  | case2 n large ih =>
    rw [readMore?_append, ih]
    simp only [Option.bind_some, readMore?, digitValue?_digitChar (n % 10) (by omega)]
    exact congrArg some (by omega)

theorem digits_eq_cons (n : Nat) : ∃ d cs, d < 10 ∧ digits n = digitChar d :: cs := by
  fun_induction digits n with
  | case1 n small => exact ⟨n, [], small, rfl⟩
  | case2 n large ih =>
    obtain ⟨d, cs, small, written⟩ := ih
    exact ⟨d, cs ++ [digitChar (n % 10)], small, by rw [written, List.cons_append]⟩

/-- What is written is read back. -/
theorem read?_digits (n : Nat) : read? (digits n) = some n := by
  obtain ⟨d, cs, -, written⟩ := digits_eq_cons n
  rw [← readMore?_digits n, written, read?]
  exact List.cons_ne_nil _ _

theorem dropPlus_digits (n : Nat) : dropPlus (digits n) = digits n := by
  obtain ⟨d, cs, small, written⟩ := digits_eq_cons n
  rw [written, dropPlus, if_neg (digitChar_ne_plus d small)]

/-- A word that is written is read back. -/
theorem readWord?_digits (w : UInt32) : readWord? (digits w.toNat) = some w := by
  have bound : w.toNat ≤ 4294967295 := by
    have := w.toNat_lt
    omega
  simp [readWord?, readAtMost?, dropPlus_digits, read?_digits, bound]

end VertexSweep.Decimal
