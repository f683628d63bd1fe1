import VertexSweep.Regex.Atom

/-! Sets of characters between brackets: characters, ranges, sets that have a name and further
sets between brackets, joined to one another or combined by an operator. Reading one tells how
deep its parts are nested; it fails if the set is malformed or cannot be used. -/

namespace VertexSweep.Regex

/-- How deep a list of parts is nested, given how deep each part is. A lone part stands for
itself; several make one more level. -/
def depthOf : List Nat → Nat
  | [] => 0
  | [depth] => depth
  | depths => depths.foldl max 0 + 1

/-- The names that a set may have between colons. -/
def classNames : List String :=
  ["alnum", "alpha", "ascii", "blank", "cntrl", "digit", "graph", "lower", "print", "punct",
    "space", "upper", "word", "xdigit"]

/-- The rest of a text behind the name of a set, and whether all characters but those of the set
are meant. The text is that behind the bracket which opens the name. -/
def className? : List Char → Option (Bool × List Char)
  | ':' :: cs =>
    let (negated, cs) := match cs with
      | '^' :: cs => (true, cs)
      | cs => (false, cs)
    match cs.dropWhile (· != ':') with
    | ':' :: ']' :: rest =>
      if classNames.contains (String.ofList (cs.takeWhile (· != ':'))) then some (negated, rest)
      else none
    | _ => none
  | _ => none

/-- Whether a character can be in a set under the given flags. -/
def isUsableMember (flags : Flags) (c : Char) : Bool :=
  if flags.unicode then !flags.ignoreCase else c.toNat < 128

/-- Whether an atom can be in a set under the given flags: positions cannot, and the dot is
always a character there. -/
def Atom.isUsableMember (flags : Flags) : Atom → Bool
  | .char c _ => Regex.isUsableMember flags c
  | .named negated => Atom.isUsable flags (.named negated)
  | _ => false

/-- A character, or an escape, of a set. -/
def member? (flags : Flags) : List Char → Option (Atom × List Char)
  | [] => none
  | '\\' :: cs => escape? flags cs
  | c :: cs => some (.char c false, cs)

/-- The character that decides whether a dash makes a range; the text is that behind the dash.
Blanks are looked through, and so is the mark of a comment. -/
def afterDash? (flags : Flags) (cs : List Char) : Option Char :=
  if flags.verbose then
    match cs.dropWhile Blank.isBlank with
    | '#' :: cs => (cs.dropWhile Blank.isBlank).head?
    | cs => cs.head?
  else cs.head?

/-- Reads a character, an escape or a range of characters, and returns the rest of the text. -/
def members? (flags : Flags) (cs : List Char) : Option (List Char) := do
  let (first, rest) ← member? flags cs
  let alone : Option (List Char) := if first.isUsableMember flags then some rest else none
  match flags.skip rest with
  | [] => none
  | '-' :: behind =>
    if afterDash? flags behind = some ']' ∨ afterDash? flags behind = some '-' then alone
    else do
      let (last, rest) ← member? flags (flags.skip behind)
      match first, last with
      | .char a _, .char b _ =>
        if a ≤ b ∧ isUsableMember flags a ∧ isUsableMember flags b then some rest else none
      | _, _ => none
  | _ => alone

/-- A set that is being read. -/
structure OpenSet where
  /-- Whether the bracket was opened just now, but for dashes. -/
  isFresh : Bool := true
  /-- How deep the operand on the left of the last operator is nested. -/
  left : Option Nat := none
  /-- How deep the parts behind the last operator are nested. -/
  parts : List Nat := []
deriving DecidableEq, Repr, Inhabited

namespace OpenSet

def add (s : OpenSet) (depth : Nat) : OpenSet :=
  { s with isFresh := false, parts := depth :: s.parts }

/-- How deep the set is nested, as it stands. -/
def depth (s : OpenSet) : Nat :=
  match s.left with
  | none => depthOf s.parts
  | some left => max left (depthOf s.parts) + 1

/-- Begins the right operand of an operator. -/
def combine (s : OpenSet) : OpenSet := ⟨false, some s.depth, []⟩

end OpenSet

/-- Opens a set behind its bracket; all characters but those of the set cannot be meant where
bytes are matched. -/
def openSet? (flags : Flags) (cs : List Char) : Option (List Char) :=
  match flags.skip cs with
  | '^' :: cs => if flags.unicode then some cs else none
  | cs => some cs

/-- Reads on in the set `s`, which the sets of `outer` surround, and returns how deep the
outermost one is nested. Takes `left` steps at most. -/
def readSet (flags : Flags) : (left : Nat) → OpenSet → (outer : List OpenSet) → List Char →
    Option (Nat × List Char)
  | 0, _, _, _ => none
  | left + 1, s, outer, cs =>
    match flags.skip cs with
    | [] => none
    | c :: rest =>
      if s.isFresh && c == '-' then
        if isUsableMember flags c then
          readSet flags left { s with parts := 0 :: s.parts } outer rest
        else none
      else if c = ']' ∧ !(s.isFresh && s.parts.isEmpty) then
        match outer with
        | [] => some (s.depth + 1, rest)
        | around :: outer => readSet flags left (around.add (s.depth + 1)) outer rest
      else if c = ']' then
        if isUsableMember flags c then readSet flags left (s.add 0) outer rest else none
      else if c = '[' then
        match className? rest with
        | some (negated, rest) =>
          if if flags.unicode then flags.ignoreCase else negated then none
          else readSet flags left (s.add 0) outer rest
        | none => do readSet flags left {} (s :: outer) (← openSet? flags rest)
      else if (c = '&' ∨ c = '-' ∨ c = '~') ∧ rest.head? = some c then
        readSet flags left s.combine outer rest.tail
      else do readSet flags left (s.add 0) outer (← members? flags (c :: rest))

/-- Reads a set behind the bracket that opens it, and returns how deep it is nested. -/
def set? (flags : Flags) (cs : List Char) : Option (Nat × List Char) := do
  readSet flags (cs.length + 1) {} [] (← openSet? flags cs)

end VertexSweep.Regex
