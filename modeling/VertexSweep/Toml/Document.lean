import VertexSweep.Toml.Number
import VertexSweep.Toml.Quoted

/-! Whole TOML documents: keys, arrays, inline tables, and the lines of a document, which give
values to keys or declare the table that the following lines belong to. -/

namespace VertexSweep.Toml

/-- Containers nest, and dotted keys have parts, fewer times than this. -/
def maxNesting : Nat := 80

def keyPart : Scan String := fun cs =>
  match cs with
  | '"' :: _ | '\x27' :: _ => Quoted.single cs
  | _ =>
    let part := cs.takeWhile Scan.isKeyChar
    if part.isEmpty then none else some (String.ofList part, cs.dropWhile Scan.isKeyChar)

/-- The parts of a key, with blanks around them; `left` at most. -/
def keyParts : (left : Nat) → Scan (List String)
  | 0, _ => none
  | left + 1, cs => do
    let (part, rest) ← keyPart (Scan.skipBlanks cs)
    match Scan.skipBlanks rest with
    | '.' :: rest =>
      let (parts, rest) ← keyParts left rest
      return (part :: parts, rest)
    | rest => return ([part], rest)

/-- A key: the parts before the last, and the last. -/
def key : Scan (List String × String) := fun cs => do
  let (parts, rest) ← keyParts (maxNesting - 1) cs
  let last ← parts.getLast?
  return ((parts.dropLast, last), rest)

/-- A key and its value, which `value` reads. -/
def keyValue (value : Scan Node) : Scan ((List String × String) × Node) := fun cs => do
  let (k, cs) ← key cs
  let (v, rest) ← value (Scan.skipBlanks (← Scan.after? ['='] cs))
  return ((k, v), rest)

/-- The items of an array up to its closing bracket; `left` at most. -/
def items (value : Scan Node) : (left : Nat) → Scan (List Node)
  | 0, _ => none
  | left + 1, cs =>
    match Scan.skipSpace cs with
    | ']' :: rest => some ([], rest)
    | cs => do
      let (item, rest) ← value cs
      match Scan.skipSpace rest with
      | ']' :: rest => return ([item], rest)
      | ',' :: rest =>
        let (more, rest) ← items value left rest
        return (item :: more, rest)
      | _ => none

/-- The entries of an inline table up to its closing brace; `left` at most. -/
def inlineEntries (value : Scan Node) : (left : Nat) → Entries → Scan Entries
  | 0, _, _ => none
  | left + 1, entries, cs => do
    let ((k, v), rest) ← keyValue value cs
    let entries ← entries.assign? k.1 k.2 v
    match Scan.skipBlanks rest with
    | '\x7d' :: rest => return (entries, rest)
    | ',' :: rest => inlineEntries value left entries rest
    | _ => none

/-- A value other than an array or an inline table. -/
def scalar : Scan Node := fun cs =>
  match cs with
  | '"' :: _ | '\x27' :: _ => do
    let (s, rest) ← Quoted.any cs
    return (.text s, rest)
  | 't' :: _ => do return (.boolean true, ← Scan.after? ['t', 'r', 'u', 'e'] cs)
  | 'f' :: _ => do return (.boolean false, ← Scan.after? ['f', 'a', 'l', 's', 'e'] cs)
  | _ => Number.any cs

/-- A value in which arrays and inline tables nest at most `depth` times. -/
def value : (depth : Nat) → Scan Node
  | 0, cs => scalar cs
  | depth + 1, cs =>
    match cs with
    | '[' :: rest => do
      let (ns, rest) ← items (value depth) (rest.length + 1) rest
      return (.array ns, rest)
    | '\x7b' :: rest =>
      match Scan.skipBlanks rest with
      | '\x7d' :: rest => some (.table .inline [], rest)
      | _ => do
        let (entries, rest) ← inlineEntries (value depth) (rest.length + 1) [] rest
        return (.table .inline entries, rest)
    | _ => scalar cs

/-- A document that has been read in part. -/
structure Draft where
  root : Entries := []
  /-- The table to which the next lines belong. -/
  current : List String := []

/-- Reads a header, from its opening bracket on. -/
def header (d : Draft) (cs : List Char) : Option (Draft × List Char) := do
  match cs with
  | '[' :: '[' :: cs =>
    let ((path, last), cs) ← key cs
    let rest ← Scan.after? [']', ']'] cs
    return (⟨← d.root.declareNext? path last, path ++ [last]⟩, rest)
  | '[' :: cs =>
    let ((path, last), cs) ← key cs
    let rest ← Scan.after? [']'] cs
    return (⟨← d.root.declare? path last, path ++ [last]⟩, rest)
  | _ => none

/-- Reads a line that gives a value to a key of the current table. -/
def assignment (d : Draft) (cs : List Char) : Option (Draft × List Char) := do
  let (((path, last), v), rest) ← keyValue (value (maxNesting - 1)) cs
  let root ← d.root.within? (Entries.assign? path last v) d.current
  return (⟨root, d.current⟩, rest)

/-- Reads the lines of a document, `left` at most. -/
def readLines (d : Draft) : (left : Nat) → List Char → Option Entries
  | 0, _ => none
  | left + 1, cs =>
    match Scan.skipSpace cs with
    | [] => some d.root
    | '#' :: cs => if (Scan.skipComment ('#' :: cs)).isEmpty then some d.root else none
    | cs => do
      let (d, rest) ← if cs.head? = some '[' then header d cs else assignment d cs
      readLines d left (← Scan.endOfLine? rest)

/-- The entries of a document, if it is well formed; it may start with a byte order mark. -/
def ofText (text : List Char) : Option Entries :=
  let text := match text with
    | '\ufeff' :: cs => cs
    | cs => cs
  readLines {} (text.length + 1) text

end VertexSweep.Toml
