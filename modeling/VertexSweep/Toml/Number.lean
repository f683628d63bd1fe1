import VertexSweep.Toml.Node
import VertexSweep.Toml.Scan

/-! Numbers, dates and times of TOML. Integers must fit in 64 bits with a sign; a positive
floating-point number must not round to infinity; dates and times must exist. -/

namespace VertexSweep.Toml.Number

/-- An integer in the range of 64 bits with a sign. -/
def inRange? (n : Int) : Option Int :=
  if -9223372036854775808 ≤ n ∧ n ≤ 9223372036854775807 then some n else none

/-- Decimal digits without a leading zero, except for zero itself. -/
def decimal : Scan (List Char)
  | '0' :: cs => some (['0'], cs)
  | cs => Scan.digits Digit.isDecimal cs

def integer : Scan Node := fun cs =>
  match cs with
  | '0' :: 'x' :: cs => based 16 Digit.isHex cs
  | '0' :: 'o' :: cs => based 8 (fun c => '0' ≤ c && c ≤ '7') cs
  | '0' :: 'b' :: cs => based 2 (fun c => c == '0' || c == '1') cs
  | cs => do
    let (negative, cs) := Scan.sign cs
    let (ds, rest) ← decimal cs
    let n : Int := Digit.number 10 ds
    return (.integer (← inRange? (if negative then -n else n)), rest)
where
  /-- The digits behind the mark of a base. -/
  based (base : Nat) (isOk : Char → Bool) (cs : List Char) : Option (Node × List Char) := do
    let (ds, rest) ← Scan.digits isOk cs
    return (.integer (← inRange? (Digit.number base ds)), rest)

/-- Whether the number `digits · 10 ^ exponent` rounds to infinity in double precision. -/
def overflows (digits : List Char) (exponent : Int) : Bool :=
  let significant := digits.dropWhile (· == '0')
  let size : Int := significant.length + exponent
  if significant.isEmpty || size < 309 then false
  else if 310 < size then true
  else
    let n := Digit.number 10 significant
    let bound := Nat.pow 2 1024 - Nat.pow 2 970
    if 0 ≤ exponent then bound ≤ n * Nat.pow 10 exponent.toNat
    else bound * Nat.pow 10 (-exponent).toNat ≤ n

/-- The exponent of a number, from its letter on. -/
def exponent : Scan Int
  | c :: cs =>
    if c = 'e' ∨ c = 'E' then do
      let (negative, cs) := Scan.sign cs
      let (ds, rest) ← Scan.digits Digit.isDecimal cs
      let n : Int := Digit.number 10 ds
      return (if negative then -n else n, rest)
    else none
  | [] => none

/-- The fraction of a number, from its point on. -/
def fraction : Scan (List Char)
  | '.' :: cs => Scan.digits Digit.isDecimal cs
  | _ => none

/-- What was taken from the front of a text, given what is left of it. -/
def written (cs rest : List Char) : List Char := cs.take (cs.length - rest.length)

/-- Infinity or not-a-number. -/
def special : Scan Node := fun cs => do
  let (_, unsigned) := Scan.sign cs
  let rest ← Scan.after? ['i', 'n', 'f'] unsigned <|> Scan.after? ['n', 'a', 'n'] unsigned
  return (.float (written cs rest), rest)

/-- A number with a fraction, an exponent or both. -/
def float : Scan Node := fun cs => do
  let (negative, unsigned) := Scan.sign cs
  let (whole, rest) ← decimal unsigned
  let (part, power, rest) ← match fraction rest with
    | some (part, rest) =>
      match exponent rest with
      | some (power, rest) => some (part, power, rest)
      | none => some (part, 0, rest)
    | none =>
      match exponent rest with
      | some (power, rest) => some ([], power, rest)
      | none => none
  if !negative && overflows (whole ++ part) (power - part.length) then none
  else return (.float (written cs rest), rest)

/-- A number of exactly `n` digits between two bounds. -/
def field (n lo hi : Nat) : Scan Nat := fun cs => do
  let (ds, rest) ← Scan.exactly n Digit.isDecimal cs
  let k := Digit.number 10 ds
  if lo ≤ k ∧ k ≤ hi then return (k, rest) else none

/-- The number of days of a month. -/
def daysIn (year month : Nat) : Nat :=
  if month = 2 then
    if year % 4 = 0 ∧ (year % 100 ≠ 0 ∨ year % 400 = 0) then 29 else 28
  else if month = 4 ∨ month = 6 ∨ month = 9 ∨ month = 11 then 30
  else 31

/-- The rest of the text behind a date. -/
def date? (cs : List Char) : Option (List Char) := do
  let (year, cs) ← field 4 0 9999 cs
  let (month, cs) ← field 2 1 12 (← Scan.after? ['-'] cs)
  let (_, cs) ← field 2 1 (daysIn year month) (← Scan.after? ['-'] cs)
  return cs

/-- The rest of the text behind a time of day. -/
def time? (cs : List Char) : Option (List Char) := do
  let (_, cs) ← field 2 0 23 cs
  let (_, cs) ← field 2 0 59 (← Scan.after? [':'] cs)
  let (_, cs) ← field 2 0 60 (← Scan.after? [':'] cs)
  match cs with
  | '.' :: d :: cs => if Digit.isDecimal d then return cs.dropWhile Digit.isDecimal else none
  | '.' :: [] => none
  | cs => return cs

/-- The rest of the text behind an offset from universal time. -/
def offset? : List Char → Option (List Char)
  | c :: cs =>
    if c = 'Z' ∨ c = 'z' then some cs
    else if c = '+' ∨ c = '-' then do
      let (_, cs) ← field 2 0 23 cs
      let (_, cs) ← field 2 0 59 (← Scan.after? [':'] cs)
      return cs
    else none
  | [] => none

/-- The rest of the text behind a time of day that follows a date, if there is one. -/
def skipTime (cs : List Char) : List Char :=
  match cs with
  | c :: behind =>
    if c = 'T' ∨ c = 't' ∨ c = ' ' then
      match time? behind with
      | some cs => (offset? cs).getD cs
      | none => cs
    else cs
  | [] => []

/-- A date, a time of day, or both. -/
def moment : Scan Node := fun cs => do
  let rest ← match date? cs with
    | some cs => some (skipTime cs)
    | none => time? cs
  return (.moment (written cs rest), rest)

/-- A number, a date or a time. -/
def any : Scan Node := fun cs => moment cs <|> float cs <|> special cs <|> integer cs

end VertexSweep.Toml.Number
