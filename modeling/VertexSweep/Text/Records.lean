import VertexSweep.Text.Blank

/-! Records of separated fields. A record ends at a line feed, at a carriage return, or at the end
of the text. A field that starts with a quotation mark runs up to the closing one, across line
ends if need be, and writes a quotation mark by doubling it. Records that start with a number sign
are comments and run up to the next line feed. Fields are trimmed, empty fields are dropped, and a
record without any other field is none at all. The separator of a text is the first of tab and
comma that its first line with data contains, or else the space. -/

namespace VertexSweep.Records

/-- A record: its fields, none of which is empty, and the line on which the search for it began;
that is the line after the previous record, however many comments and empty lines lie between. -/
structure Record where
  line : Nat
  fields : List (List Char)
deriving DecidableEq, Repr

/-- Where a reader is. -/
inductive Mode where
  /-- Before a record. -/
  | outside
  /-- Before a record, just behind a carriage return. -/
  | afterReturn
  /-- In a comment. -/
  | comment
  /-- Before a field. -/
  | fieldStart
  /-- In a field, and not between quotation marks. -/
  | bare
  /-- Between quotation marks. -/
  | quoted
  /-- Behind a quotation mark that closes a field, unless another one follows. -/
  | quoteSeen
deriving DecidableEq, Repr

/-- A reader that has come some way through a text. -/
structure Reader where
  mode : Mode := .outside
  /-- The present field, last character first. -/
  field : List Char := []
  /-- The fields of the present record so far, last field first. -/
  fields : List (List Char) := []
  /-- The present line, counted by line feeds from one. -/
  line : Nat := 1
  /-- The line on which the search for the present record began. -/
  start : Nat := 1
  /-- The records so far, last record first. -/
  records : List Record := []
deriving DecidableEq, Repr

namespace Reader

/-- Takes one more character into the present field. -/
def take (r : Reader) (c : Char) (mode : Mode) : Reader :=
  { r with mode, field := c :: r.field }

/-- Ends the present field; nothing is kept of it if it is blank. -/
def endField (r : Reader) : Reader :=
  let field := Blank.trim r.field.reverse
  { r with
    mode := .fieldStart
    field := []
    fields := if field.isEmpty then r.fields else field :: r.fields }

/-- Ends the present record, and begins the search for the next. -/
def endRecord (r : Reader) : Reader :=
  let r := r.endField
  { r with
    mode := .outside
    fields := []
    start := r.line
    records := if r.fields.isEmpty then r.records else ⟨r.start, r.fields.reverse⟩ :: r.records }

/-- Reads a character that is not part of a quoted text. -/
def readBare (sep : Char) (r : Reader) (c : Char) : Reader :=
  if c = sep then r.endField
  else if c = '\n' then r.endRecord
  else if c = '\r' then { r.endRecord with mode := .afterReturn }
  else r.take c .bare

/-- Reads the first character of a field, or its end. -/
def readFirst (sep : Char) (r : Reader) (c : Char) : Reader :=
  if c = '"' then { r with mode := .quoted } else r.readBare sep c

def readOutside (sep : Char) (r : Reader) (c : Char) : Reader :=
  if c = '\n' ∨ c = '\r' then { r with mode := .outside }
  else if c = '#' then { r with mode := .comment }
  else r.readFirst sep c

def read (sep : Char) (r : Reader) (c : Char) : Reader :=
  let r := if c = '\n' then { r with line := r.line + 1 } else r
  match r.mode with
  | .outside => r.readOutside sep c
  | .afterReturn => if c = '\n' then { r with mode := .outside } else r.readOutside sep c
  | .comment => if c = '\n' then { r with mode := .outside } else r
  | .fieldStart => r.readFirst sep c
  | .bare => r.readBare sep c
  | .quoted => if c = '"' then { r with mode := .quoteSeen } else r.take c .quoted
  | .quoteSeen => if c = '"' then r.take c .quoted else r.readBare sep c

def finish (r : Reader) : List Record :=
  match r.mode with
  | .outside | .afterReturn | .comment => r.records.reverse
  | _ => r.endRecord.records.reverse

end Reader

/-- A text without the byte order mark that it may start with. -/
def dropMark : List Char → List Char
  | [] => []
  | c :: cs => if c = '\ufeff' then cs else c :: cs

/-- The records of a text whose fields are separated by the given character. -/
def split (sep : Char) (text : List Char) : List Record :=
  ((dropMark text).foldl (Reader.read sep) {}).finish

/-- The lines of a text, ended by line feeds. -/
def lines (text : List Char) : List (List Char) :=
  text.foldr
    (fun c ls => if c = '\n' then [] :: ls else match ls with
      | [] => [[c]]
      | l :: ls => (c :: l) :: ls)
    [[]]

/-- The first line with data, trimmed: neither blank nor a comment. -/
def firstData (text : List Char) : List Char :=
  (((lines text).map Blank.trim).find? fun l => !l.isEmpty && l.head? != some '#').getD []

/-- The character that separates the fields of a text. -/
def separator (text : List Char) : Char :=
  let first := firstData text
  if first.contains '\t' then '\t' else if first.contains ',' then ',' else ' '

def ofText (text : List Char) : List Record := split (separator text) text

end VertexSweep.Records
