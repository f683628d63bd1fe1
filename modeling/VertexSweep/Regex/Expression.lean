import VertexSweep.Regex.Bracketed
import VertexSweep.Text.Alphanumeric

/-! Regular expressions, and which of them can be used. An expression is a sequence of parts, or
several of them between bars; a part is an atom, a set of characters, a group or a repetition. The
expressions here stand in braces and hold no closing brace themselves, so a brace that opens a
repetition or a name is never closed. -/

namespace VertexSweep.Regex

/-- The greatest depth of an expression. -/
def maxDepth : Nat := 250

/-- A part of an expression: `none` for a change of flags, which cannot be repeated, and otherwise
how deep the part is nested. -/
abbrev Part := Option Nat

/-- A group, or the whole expression, that is being read. -/
structure OpenGroup where
  flags : Flags := {}
  /-- How deep the alternatives before the last bar are nested. -/
  alternatives : List Nat := []
  /-- The parts of the last alternative, latest first. -/
  parts : List Part := []
deriving DecidableEq, Repr, Inhabited

namespace OpenGroup

def add (g : OpenGroup) (part : Part) : OpenGroup := { g with parts := part :: g.parts }

/-- How deep the last alternative is nested. -/
def partsDepth (g : OpenGroup) : Nat := depthOf (g.parts.map (·.getD 0))

def branch (g : OpenGroup) : OpenGroup :=
  { g with alternatives := g.partsDepth :: g.alternatives, parts := [] }

/-- How deep the group is nested, as it stands. -/
def depth (g : OpenGroup) : Nat := depthOf (g.partsDepth :: g.alternatives)

def repeat? (g : OpenGroup) : Option OpenGroup :=
  match g.parts with
  | some depth :: parts => some { g with parts := some (depth + 1) :: parts }
  | _ => none

end OpenGroup

/-- Whether a character can be the first of the name of a group. -/
def isNameStart (c : Char) : Bool := c == '_' || Alphanumeric.isLetter c

/-- Whether a character can be in the name of a group. -/
def isNameChar (c : Char) : Bool :=
  c == '_' || c == '.' || c == '[' || c == ']' || Alphanumeric.isAlphanumeric c

/-- The name of a group, up to the angle bracket that closes it. -/
def groupName? (cs : List Char) : Option (List Char × List Char) :=
  match cs.takeWhile (· != '>'), cs.dropWhile (· != '>') with
  | c :: name, _ :: rest =>
    if isNameStart c && name.all isNameChar then some (c :: name, rest) else none
  | _, _ => none

/-- The opening of a group. -/
inductive Opening where
  /-- A group without a name, and the flags in it. -/
  | plain (flags : Flags)
  | named (name : List Char)
  /-- A change of the flags of the group around it. -/
  | change (flags : Flags)
deriving DecidableEq, Repr

/-- Reads what a group begins with, behind its parenthesis. Groups that look ahead or behind are
refused. -/
def opening? (flags : Flags) (cs : List Char) : Option (Opening × List Char) :=
  match flags.skip cs with
  | '?' :: '=' :: _ | '?' :: '!' :: _ | '?' :: '<' :: '=' :: _ | '?' :: '<' :: '!' :: _ => none
  | '?' :: 'P' :: '<' :: cs | '?' :: '<' :: cs => do
    let (name, rest) ← groupName? cs
    return (.named name, rest)
  | '?' :: cs =>
    match flags.read [] false false cs with
    | some (inner, _, ':' :: rest) => some (.plain inner, rest)
    | some (inner, _ :: _, ')' :: rest) => some (.change inner, rest)
    | _ => none
  | cs => some (.plain flags, cs)

/-- Skips the mark of a repetition that takes as little as it can. -/
def dropLazyMark : List Char → List Char
  | '?' :: cs => cs
  | cs => cs

/-- A part that is no group, set or repetition. -/
def atom? (flags : Flags) : List Char → Option (List Char)
  | [] => none
  | c :: cs => do
    let (atom, rest) ←
      if c = '\\' then escape? flags cs
      else if c = '.' then some (.dot, cs)
      else if c = '^' ∨ c = '$' then some (.edge, cs)
      else some (.char c false, cs)
    if atom.isUsable flags then some rest else none

/-- Reads on in the group `g`, which the groups of `outer` surround, and tells whether the
expression can be used. No two groups may have one name; `names` holds those so far. Takes `left`
steps at most. -/
def readOn : (left : Nat) → (names : List (List Char)) → OpenGroup → (outer : List OpenGroup) →
    List Char → Bool
  | 0, _, _, _, _ => false
  | left + 1, names, g, outer, cs =>
    match g.flags.skip cs with
    | [] => outer.isEmpty && g.depth ≤ maxDepth
    | c :: rest =>
      if c = '(' then
        match opening? g.flags rest with
        | none => false
        | some (.plain flags, rest) => readOn left names { flags } (g :: outer) rest
        | some (.named name, rest) =>
          !names.contains name &&
            readOn left (name :: names) { flags := g.flags } (g :: outer) rest
        | some (.change flags, rest) =>
          readOn left names ({ g with flags }.add none) outer rest
      else if c = ')' then
        match outer with
        | [] => false
        | around :: outer => readOn left names (around.add (some (g.depth + 1))) outer rest
      else if c = '|' then readOn left names g.branch outer rest
      else if c = '[' then
        match set? g.flags rest with
        | none => false
        | some (depth, rest) => readOn left names (g.add (some depth)) outer rest
      else if c = '?' ∨ c = '*' ∨ c = '+' then
        match g.repeat? with
        | none => false
        | some g => readOn left names g outer (dropLazyMark rest)
      else if c = '\x7b' then false
      else
        match atom? g.flags (c :: rest) with
        | none => false
        | some rest => readOn left names (g.add (some 0)) outer rest

/-- Whether a text is a regular expression that can be used. -/
def isUsable (cs : List Char) : Bool := readOn (cs.length + 1) [] {} [] cs

end VertexSweep.Regex
