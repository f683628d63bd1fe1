import VertexSweep.Text.Decimal

/-! JSON documents, written with one item per line and two spaces of indentation for every level.
Objects keep the order of their members; empty arrays and objects stay on one line. -/

namespace VertexSweep

/-- A JSON value whose numbers are natural. -/
inductive Document where
  | null
  | bool (b : Bool)
  | number (n : Nat)
  | text (s : String)
  | array (items : List Document)
  | object (members : List (String × Document))
deriving Repr, Inhabited

namespace Document

/-- The digit of a number below sixteen, in lower case. -/
def hexDigit (n : Nat) : Char := Char.ofNat (if n < 10 then 48 + n else 87 + n)

/-- The written form of a character between quotation marks. -/
def escape (c : Char) : List Char :=
  match c with
  | '"' => ['\\', '"']
  | '\\' => ['\\', '\\']
  | '\n' => ['\\', 'n']
  | '\r' => ['\\', 'r']
  | '\t' => ['\\', 't']
  | '\x08' => ['\\', 'b']
  | '\x0c' => ['\\', 'f']
  | c =>
    if c.toNat < 32 then ['\\', 'u', '0', '0', hexDigit (c.toNat / 16), hexDigit (c.toNat % 16)]
    else [c]

def quote (s : String) : String := String.ofList ('"' :: s.toList.flatMap escape ++ ['"'])

/-- A line end and the indentation of a level. -/
def newLine (level : Nat) : String := String.ofList ('\n' :: List.replicate (2 * level) ' ')

mutual

/-- The written form of a value on the given level of indentation. -/
def render (level : Nat) : Document → String
  | null => "null"
  | bool b => if b then "true" else "false"
  | number n => Decimal.text n
  | text s => quote s
  | array [] => "[]"
  | array (j :: js) =>
    "[" ++ newLine (level + 1) ++ render (level + 1) j ++ renderItems (level + 1) js ++
      newLine level ++ "]"
  | object [] => "\x7b\x7d"
  | object ((name, j) :: members) =>
    "\x7b" ++ newLine (level + 1) ++ quote name ++ ": " ++ render (level + 1) j ++
      renderMembers (level + 1) members ++ newLine level ++ "\x7d"

/-- The written form of the further items of an array. -/
def renderItems (level : Nat) : List Document → String
  | [] => ""
  | j :: js => "," ++ newLine level ++ render level j ++ renderItems level js

/-- The written form of the further members of an object. -/
def renderMembers (level : Nat) : List (String × Document) → String
  | [] => ""
  | (name, j) :: members =>
    "," ++ newLine level ++ quote name ++ ": " ++ render level j ++ renderMembers level members

end

def pretty (j : Document) : String := render 0 j

def word (n : UInt32) : Document := number n.toNat

def ofOption {α : Type} (f : α → Document) : Option α → Document
  | none => null
  | some a => f a

end Document

end VertexSweep
