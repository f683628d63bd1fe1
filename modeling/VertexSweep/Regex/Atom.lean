import VertexSweep.Regex.Flags
import VertexSweep.Text.Blank
import VertexSweep.Text.Digit

/-! Atoms of regular expressions: a character, a set of characters that has a name, or a position
between characters. An atom can be used if the automaton that the expression becomes needs no
table of characters for it, and cannot stop inside a character. -/

namespace VertexSweep.Regex

/-- The smallest part of a regular expression. -/
inductive Atom where
  /-- A character; `isByte` if it was written as the two digits of a byte. -/
  | char (c : Char) (isByte : Bool)
  /-- Any character. -/
  | dot
  /-- The start or the end of the text or of a line. -/
  | edge
  /-- A position that depends on the words around it. -/
  | wordEdge
  /-- Digits, blanks or the characters of words, or all but these. -/
  | named (negated : Bool)
  /-- The characters with some property. -/
  | property
deriving DecidableEq, Repr, Inhabited

/-- Whether an atom can be used under the given flags. Ignoring case, words, digits, blanks and
properties need tables when characters are matched; when bytes are, a byte beyond ASCII, any
byte, and all bytes but some may lie inside a character. -/
def Atom.isUsable (flags : Flags) : Atom → Bool
  | .char c isByte => if flags.unicode then !flags.ignoreCase else !isByte || c.toNat < 128
  | .dot => flags.unicode
  | .edge => true
  | .wordEdge => !flags.unicode
  | .named negated => !flags.unicode && !negated
  | .property => false

/-- Skips blanks and comments; `comment` tells whether a comment has begun. -/
def skipBlanks (comment : Bool) : List Char → List Char
  | [] => []
  | c :: cs =>
    if comment then skipBlanks (c != '\n') cs
    else if Blank.isBlank c then skipBlanks false cs
    else if c = '#' then skipBlanks true cs
    else c :: cs

/-- Skips blanks and comments, if the flags ask for it. -/
def Flags.skip (flags : Flags) (cs : List Char) : List Char :=
  if flags.verbose then skipBlanks false cs else cs

/-- Whether a backslash makes a character stand for itself: ASCII characters do, but for letters
and digits. -/
def isEscapable (c : Char) : Bool := c.toNat < 128 && !c.isAlphanum

/-- The control character that a letter stands for behind a backslash. -/
def control? (letter : Char) : Option Char :=
  match letter with
  | 'a' => some '\x07'
  | 't' => some '\t'
  | 'n' => some '\n'
  | 'v' => some '\x0b'
  | 'f' => some '\x0c'
  | 'r' => some '\r'
  | _ => none

/-- Reads `n` more hexadecimal digits of a code point. -/
def codePoint? (flags : Flags) : (n : Nat) → (code : Nat) → List Char → Option (Char × List Char)
  | 0, code, cs => if code.isValidChar then some (Char.ofNat code, cs) else none
  | _ + 1, _, [] => none
  | n + 1, code, c :: cs =>
    if Digit.isHex c then codePoint? flags n (16 * code + Digit.value c) (flags.skip cs) else none

/-- The letter of a property behind its mark. Longer names stand in braces, and nothing here
closes a brace. -/
def property? (flags : Flags) (cs : List Char) : Option (Atom × List Char) :=
  match flags.skip cs with
  | [] => none
  | c :: cs => if c = '\x7b' ∨ c = '\\' then none else some (.property, flags.skip cs)

/-- The atom that an escape stands for; the text is that behind the backslash. -/
def escape? (flags : Flags) : List Char → Option (Atom × List Char)
  | [] => none
  | c :: cs =>
    let hex (n : Nat) : Option (Atom × List Char) := do
      let (d, rest) ← codePoint? flags n 0 (flags.skip cs)
      return (.char d (n == 2), rest)
    if c = 'x' then hex 2
    else if c = 'u' then hex 4
    else if c = 'U' then hex 8
    else if c = 'p' ∨ c = 'P' then property? flags cs
    else if c = 'd' ∨ c = 's' ∨ c = 'w' then some (.named false, cs)
    else if c = 'D' ∨ c = 'S' ∨ c = 'W' then some (.named true, cs)
    else if c = 'A' ∨ c = 'z' then some (.edge, cs)
    else if c = 'b' ∨ c = 'B' ∨ c = '<' ∨ c = '>' then some (.wordEdge, cs)
    else if isEscapable c then some (.char c false, cs)
    else (control? c).map fun d => (.char d false, cs)

end VertexSweep.Regex
