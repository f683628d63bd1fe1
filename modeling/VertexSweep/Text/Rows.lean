/-! Writing rows of comma-separated fields, one row per line. A field is put between quotation
marks, and those inside it are doubled, if it contains a comma, a quotation mark or a line end. -/

namespace VertexSweep.Rows

/-- Whether a character cannot stand in a field that is not quoted. -/
def isSpecial (c : Char) : Bool := c == ',' || c == '"' || c == '\r' || c == '\n'

/-- Doubles the quotation marks of a text. -/
def doubleQuotes : List Char → List Char
  | [] => []
  | c :: cs => if c = '"' then '"' :: '"' :: doubleQuotes cs else c :: doubleQuotes cs

def field (s : List Char) : List Char :=
  if s.any isSpecial then '"' :: doubleQuotes s ++ ['"'] else s

/-- The written form of a row with two fields. -/
def row (a b : List Char) : List Char := field a ++ ',' :: field b ++ ['\n']

end VertexSweep.Rows
