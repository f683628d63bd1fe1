import VertexSweep.Fault
import VertexSweep.Regex.Expression
import VertexSweep.Text.Bytes
import VertexSweep.Text.Floating

/-! Logging directives. A filter is a list of directives between commas. A directive is a level, or
a target, a span, or a target with a span, that may be followed by an equals sign and a level. A
span is written between brackets and may list fields between braces; a field may have a value,
which is a number or a regular expression.

White space around a directive is skipped while it is read. The pieces, however, are cut from the
directive as it was written, at positions that do not count the white space in front, so that a
cut can fall inside a character. -/

namespace VertexSweep.LogFilter

def levelNames : List String := ["error", "warn", "info", "debug", "trace", "off"]

/-- Whether a text is a level: one of the names in any case, a number up to five, or nothing. -/
def isLevel (cs : List Char) : Bool :=
  cs.isEmpty || levelNames.contains (String.ofList (cs.map Char.toLower)) ||
    (Decimal.readAtMost? 5 cs).isSome

/-- Whether a text is a field: a name that may be followed by an equals sign and a value. What
follows a second equals sign is skipped. -/
def isField (cs : List Char) : Bool :=
  match cs.dropWhile (· != '=') with
  | [] => !cs.isEmpty
  | _ :: rest =>
    let value := rest.takeWhile (· != '=')
    Floating.isNumeral value || Regex.isUsable value

/-- Where the reader of a directive is. Positions count the bytes before them. -/
inductive Place where
  | start
  | target
  | span (start : Nat)
  | field (start : Nat)
  | afterFields
  | afterSpan
  | level (start : Nat)
deriving DecidableEq, Repr

/-- Whether a directive may start with a character, other than the bracket of a span. -/
def isOpening (c : Char) : Bool :=
  c == '-' || c == ':' || c == '_' || Alphanumeric.isAlphanumeric c

section

variable (directive : List Char)

def malformed {α : Type} : Except Fault α := .error (.logFilter (String.ofList directive))

/-- The piece of a directive between two positions. -/
def piece (start stop : Nat) : Except Fault (List Char) :=
  match Bytes.slice? start stop directive with
  | some cs => .ok cs
  | none => .error .splitCharacter

/-- Reads the character `c` at position `i`. -/
def step (i : Nat) (c : Char) : Place → Except Fault Place
  | .start =>
    if c = '[' then return .span (i + 1)
    else if isOpening c then return .target
    else malformed directive
  | .target => do
    if c ≠ '=' ∧ c ≠ '[' then return .target
    let _ ← piece directive 0 i
    return if c = '=' then .level (i + 1) else .span (i + 1)
  | .span start => do
    if c ≠ ']' ∧ c ≠ '\x7b' then return .span start
    let _ ← piece directive start i
    return if c = ']' then .afterSpan else .field (i + 1)
  | .field start => do
    if c ≠ '\x7d' then return .field start
    if isField (← piece directive start i) then return .afterFields else malformed directive
  | .afterFields => if c = ']' then return .afterSpan else malformed directive
  | .afterSpan => if c = '=' then return .level (i + 1) else malformed directive
  | .level start => return .level start

/-- Reads characters from position `i` on. -/
def readFrom (i : Nat) (place : Place) : List Char → Except Fault Place
  | [] => .ok place
  | c :: cs => do readFrom (i + c.utf8Size) (← step directive i c place) cs

/-- Fails unless a text is a directive. -/
def checkDirective : Except Fault Unit := do
  match ← readFrom directive 0 .start (Blank.trim directive) with
  | .target | .afterSpan => return ()
  | .level start =>
    match Bytes.drop? start directive with
    | none => .error .splitCharacter
    | some level => if isLevel level then return () else malformed directive
  | _ => malformed directive

end

/-- Fails unless a text is a filter; empty directives are skipped. -/
def check (filter : String) : Except Fault Unit :=
  ((filter.splitOn ",").filter (· != "")).forM fun directive => checkDirective directive.toList

end VertexSweep.LogFilter
