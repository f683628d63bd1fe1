import VertexSweep.Text.Digit

/-! Scanning: recognisers that take a piece from the front of a text and return it with what is
left, together with the character classes, blanks, comments and line ends of TOML. -/

namespace VertexSweep.Toml

/-- Takes a piece from the front of a text. -/
abbrev Scan (α : Type) := List Char → Option (α × List Char)

namespace Scan

/-- Whether a character may stand in a comment: no control character but the tab. -/
def isPlain (c : Char) : Bool := c == '\t' || (32 ≤ c.toNat && c.toNat != 127)

/-- Whether a character may stand in a bare key. -/
def isKeyChar (c : Char) : Bool :=
  Digit.isDecimal c || ('a' ≤ c && c ≤ 'z') || ('A' ≤ c && c ≤ 'Z') || c == '-' || c == '_'

def skipBlanks (cs : List Char) : List Char := cs.dropWhile fun c => c == ' ' || c == '\t'

/-- The rest of the text behind a given beginning. -/
def after? : (start : List Char) → List Char → Option (List Char)
  | [], cs => some cs
  | _ :: _, [] => none
  | s :: start, c :: cs => if s = c then after? start cs else none

/-- The rest of the text behind a line end. -/
def lineEnd? : List Char → Option (List Char)
  | '\n' :: cs => some cs
  | '\r' :: '\n' :: cs => some cs
  | _ => none

/-- Skips a comment, if there is one. -/
def skipComment : List Char → List Char
  | '#' :: cs => cs.dropWhile isPlain
  | cs => cs

/-- The rest of the text behind the end of a line, which blanks and a comment may precede; the
end of the text will do too. -/
def endOfLine? (cs : List Char) : Option (List Char) :=
  match skipComment (skipBlanks cs) with
  | [] => some []
  | cs => lineEnd? cs

/-- Skips blanks and line ends, `left` lines at most. -/
def skipEmptyLines : (left : Nat) → List Char → List Char
  | 0, cs => cs
  | left + 1, cs =>
    match lineEnd? (skipBlanks cs) with
    | some rest => skipEmptyLines left rest
    | none => skipBlanks cs

/-- Skips blanks, comments and line ends, `left` lines at most. -/
def skipLines : (left : Nat) → List Char → List Char
  | 0, cs => cs
  | left + 1, cs =>
    match lineEnd? (skipComment (skipBlanks cs)) with
    | some rest => skipLines left rest
    | none => skipBlanks cs

/-- Skips blanks, comments and line ends. -/
def skipSpace (cs : List Char) : List Char := skipLines cs.length cs

/-- Takes exactly `n` characters of a class. -/
def exactly (n : Nat) (isOk : Char → Bool) : Scan (List Char) := fun cs =>
  let taken := cs.take n
  if taken.length = n ∧ taken.all isOk then some (taken, cs.drop n) else none

/-- Takes digits of a class, between any two of which an underscore may stand. The underscores
are dropped. -/
def digits (isOk : Char → Bool) : Scan (List Char)
  | [] => none
  | c :: cs => if isOk c then some (more c cs) else none
where
  /-- Takes further digits behind the digit `c`. -/
  more (c : Char) : List Char → List Char × List Char
    | '_' :: d :: cs =>
      if isOk d then
        let (ds, rest) := more d cs
        (c :: ds, rest)
      else ([c], '_' :: d :: cs)
    | d :: cs =>
      if isOk d then
        let (ds, rest) := more d cs
        (c :: ds, rest)
      else ([c], d :: cs)
    | [] => ([c], [])

/-- Takes a sign, if there is one, and says whether it is negative. -/
def sign : List Char → Bool × List Char
  | '+' :: cs => (false, cs)
  | '-' :: cs => (true, cs)
  | cs => (false, cs)

end Scan

end VertexSweep.Toml
