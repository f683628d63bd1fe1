/-! Cutting a text at positions that count bytes of its UTF-8 form. A cut inside a character
fails; the two sides of any other make up the text again (`take?_append_drop?`). -/

namespace VertexSweep.Bytes

/-- The text in front of its byte `n`. -/
def take? (n : Nat) : List Char → Option (List Char)
  | [] => if n = 0 then some [] else none
  | c :: cs =>
    if n = 0 then some []
    else if n < c.utf8Size then none
    else (take? (n - c.utf8Size) cs).map (c :: ·)

/-- The text from its byte `n` on. -/
def drop? (n : Nat) : List Char → Option (List Char)
  | [] => if n = 0 then some [] else none
  | c :: cs =>
    if n = 0 then some (c :: cs)
    else if n < c.utf8Size then none
    else drop? (n - c.utf8Size) cs

/-- The text from its byte `start` up to its byte `stop`. -/
def slice? (start stop : Nat) (cs : List Char) : Option (List Char) := do
  take? (stop - start) (← drop? start cs)

theorem take?_append_drop? {n : Nat} {cs before after : List Char}
    (front : take? n cs = some before) (back : drop? n cs = some after) :
    before ++ after = cs := by
  induction cs generalizing n before with
  | nil =>
    by_cases zero : n = 0
    · simp_all [take?, drop?]
    · simp [take?, zero] at front
  | cons c cs ih =>
    by_cases zero : n = 0
    · simp_all [take?, drop?]
    · by_cases inside : n < c.utf8Size
      · simp [take?, zero, inside] at front
      · simp only [take?, drop?, zero, inside, if_false] at front back
        obtain ⟨rest, taken, rfl⟩ := Option.map_eq_some_iff.1 front
        exact congrArg (c :: ·) (ih taken back)

end VertexSweep.Bytes
