import VertexSweep.Text.Digit

/-! Numerals of floating-point numbers: at most one sign, then a word for infinity or for
not-a-number, or decimal digits with at most one point among or beside them and, if there is one,
an exponent. -/

namespace VertexSweep.Floating

/-- The words that stand for a number, in lower case. -/
def words : List String := ["inf", "infinity", "nan"]

/-- The text without the sign that it may start with. -/
def dropSign : List Char → List Char
  | '+' :: cs => cs
  | '-' :: cs => cs
  | cs => cs

/-- Whether a text is empty or an exponent. -/
def mayEnd : List Char → Bool
  | [] => true
  | c :: cs =>
    let digits := dropSign cs
    (c == 'e' || c == 'E') && !digits.isEmpty && digits.all Digit.isDecimal

/-- Whether a text is an unsigned number in digits. -/
def isPositional (cs : List Char) : Bool :=
  let whole := cs.takeWhile Digit.isDecimal
  match cs.dropWhile Digit.isDecimal with
  | '.' :: rest =>
    let fraction := rest.takeWhile Digit.isDecimal
    !(whole ++ fraction).isEmpty && mayEnd (rest.dropWhile Digit.isDecimal)
  | rest => !whole.isEmpty && mayEnd rest

def isNumeral (cs : List Char) : Bool :=
  let unsigned := dropSign cs
  words.contains (String.ofList (unsigned.map Char.toLower)) || isPositional unsigned

end VertexSweep.Floating
