import VertexSweep.Toml.Scan

/-! Quoted texts of TOML. Between quotation marks a backslash starts an escape; between
apostrophes all characters stand for themselves. Three marks in a row open a text that may have
line ends, which are read as line feeds; a line end right behind the opening is dropped. -/

namespace VertexSweep.Toml.Quoted

/-- The character with a code point that is written in `n` hexadecimal digits. -/
def hexChar (n : Nat) : Scan Char := fun cs => do
  let (ds, rest) ← Scan.exactly n Digit.isHex cs
  let code := Digit.number 16 ds
  if code.isValidChar then return (Char.ofNat code, rest) else none

/-- The character that an escape stands for; the text is that behind the backslash. -/
def escape : Scan Char
  | 'b' :: cs => some ('\x08', cs)
  | 't' :: cs => some ('\t', cs)
  | 'n' :: cs => some ('\n', cs)
  | 'f' :: cs => some ('\x0c', cs)
  | 'r' :: cs => some ('\r', cs)
  | '"' :: cs => some ('"', cs)
  | '\\' :: cs => some ('\\', cs)
  | 'u' :: cs => hexChar 4 cs
  | 'U' :: cs => hexChar 8 cs
  | _ => none

/-- The rest of a text behind a backslash at the end of a line, which swallows all blanks and line
ends up to the next character. -/
def continuation? (cs : List Char) : Option (List Char) := do
  let rest ← Scan.lineEnd? (Scan.skipBlanks cs)
  return Scan.skipEmptyLines rest.length rest

/-- How many of the given marks stand at the front of a text, five at most. -/
def countMarks (mark : Char) (cs : List Char) : Nat := ((cs.take 5).takeWhile (· == mark)).length

/-- The text up to the mark that closes it, on one line. Takes `left` steps at most. -/
def oneLine (mark : Char) (escapes : Bool) : (left : Nat) → Scan (List Char)
  | 0, _ => none
  | _ + 1, [] => none
  | left + 1, c :: cs =>
    if c = mark then some ([], cs)
    else if escapes && c == '\\' then do
      let (d, cs) ← escape cs
      let (ds, rest) ← oneLine mark escapes left cs
      return (d :: ds, rest)
    else if Scan.isPlain c then do
      let (ds, rest) ← oneLine mark escapes left cs
      return (c :: ds, rest)
    else none

/-- The text up to the three marks that close it. Takes `left` steps at most. -/
def manyLines (mark : Char) (escapes : Bool) : (left : Nat) → Scan (List Char)
  | 0, _ => none
  | _ + 1, [] => none
  | left + 1, c :: cs =>
    if c = mark then
      let n := countMarks mark (c :: cs)
      if 3 ≤ n then some (List.replicate (n - 3) mark, (c :: cs).drop n)
      else do
        let (ds, rest) ← manyLines mark escapes left cs
        return (c :: ds, rest)
    else if escapes && c == '\\' then
      match continuation? cs with
      | some cs => manyLines mark escapes left cs
      | none => do
        let (d, cs) ← escape cs
        let (ds, rest) ← manyLines mark escapes left cs
        return (d :: ds, rest)
    else match Scan.lineEnd? (c :: cs) with
      | some cs => do
        let (ds, rest) ← manyLines mark escapes left cs
        return ('\n' :: ds, rest)
      | none =>
        if Scan.isPlain c then do
          let (ds, rest) ← manyLines mark escapes left cs
          return (c :: ds, rest)
        else none

/-- A text on one line, from its opening mark on. -/
def single : Scan String
  | '"' :: cs => do
    let (s, rest) ← oneLine '"' true (cs.length + 1) cs
    return (String.ofList s, rest)
  | '\x27' :: cs => do
    let (s, rest) ← oneLine '\x27' false (cs.length + 1) cs
    return (String.ofList s, rest)
  | _ => none

/-- A text that may have line ends, from its three opening marks on. -/
def multi (mark : Char) (cs : List Char) : Option (String × List Char) := do
  let cs ← Scan.after? [mark, mark, mark] cs
  let cs := (Scan.lineEnd? cs).getD cs
  let (s, rest) ← manyLines mark (mark == '"') (cs.length + 1) cs
  return (String.ofList s, rest)

/-- A quoted text of any kind. -/
def any : Scan String := fun cs =>
  match cs with
  | '"' :: '"' :: '"' :: _ => multi '"' cs
  | '\x27' :: '\x27' :: '\x27' :: _ => multi '\x27' cs
  | _ => single cs

end VertexSweep.Toml.Quoted
