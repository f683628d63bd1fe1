/-! The values of a TOML document. Tables remember how they came about, because that decides
whether they can still be extended. -/

namespace VertexSweep.Toml

/-- How a table came about. -/
inductive Origin where
  /-- Written between braces; complete as it stands. -/
  | inline
  /-- Implied by a dotted key; only further dotted keys extend it. -/
  | dotted
  /-- Implied by the header of a table inside it; it may still get a header of its own. -/
  | implied
  /-- Declared by a header of its own. -/
  | declared
deriving DecidableEq, Repr, Inhabited

/-- A value. -/
inductive Node where
  | text (s : String)
  | integer (n : Int)
  /-- A number with a fraction or an exponent, infinity or not-a-number, as it was written. -/
  | float (written : List Char)
  | boolean (b : Bool)
  /-- A date, a time, or both, as it was written. -/
  | moment (written : List Char)
  | array (items : List Node)
  | table (origin : Origin) (entries : List (String × Node))
  /-- The tables declared by double-bracketed headers, last one first. -/
  | tables (ts : List (List (String × Node)))
deriving Repr, Inhabited

abbrev Entries := List (String × Node)

namespace Entries

def find? (entries : Entries) (key : String) : Option Node := entries.lookup key

/-- Replaces the value of a key, or adds the key, unless `f` refuses. -/
def update? (key : String) (f : Option Node → Option Node) : Entries → Option Entries
  | [] => do return [(key, ← f none)]
  | (k, v) :: rest =>
    if k = key then do return (k, ← f (some v)) :: rest
    else do return (k, v) :: (← update? key f rest)

/-- Gives a value to a key that has none. -/
def define? (key : String) (value : Node) : Entries → Option Entries :=
  update? key fun
    | none => some value
    | some _ => none

/-- Gives a value to a dotted key that has none. The parts before the last name tables, which
dotted keys have made or make now. -/
def assign? : (path : List String) → (key : String) → (value : Node) → Entries → Option Entries
  | [], key, value => define? key value
  | part :: path, key, value => update? part fun
    | none => do return .table .dotted (← assign? path key value [])
    | some (.table .dotted entries) => do return .table .dotted (← assign? path key value entries)
    | some (.table .implied entries) =>
      if path.isEmpty then none else do return .table .implied (← assign? path key value entries)
    | some (.tables (t :: ts)) =>
      if path.isEmpty then none else do return .tables ((← assign? path key value t) :: ts)
    | some _ => none

/-- Changes the entries of the table that the parts of a header name, making tables on the way
where there are none. -/
def within? (f : Entries → Option Entries) : (path : List String) → Entries → Option Entries
  | [] => f
  | part :: path => update? part fun
    | none => do return .table .implied (← within? f path [])
    | some (.table .inline _) => none
    | some (.table origin entries) => do return .table origin (← within? f path entries)
    | some (.tables (t :: ts)) => do return .tables ((← within? f path t) :: ts)
    | some _ => none

/-- Declares the table that a header names. -/
def declare? (path : List String) (key : String) : Entries → Option Entries :=
  within? (update? key fun
    | none => some (.table .declared [])
    | some (.table .implied entries) => some (.table .declared entries)
    | some _ => none) path

/-- Declares one more of the tables that a double-bracketed header names. -/
def declareNext? (path : List String) (key : String) : Entries → Option Entries :=
  within? (update? key fun
    | none => some (.tables [[]])
    | some (.tables ts) => some (.tables ([] :: ts))
    | some _ => none) path

end Entries

end VertexSweep.Toml
