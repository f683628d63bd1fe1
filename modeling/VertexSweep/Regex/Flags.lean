/-! Flags of regular expressions: letters that change how the rest of a group is read. Of the
seven only three bear on whether an expression can be used; the others are known and skipped. -/

namespace VertexSweep.Regex

def flagLetters : List Char := ['i', 'm', 's', 'U', 'u', 'R', 'x']

/-- The flags that matter, as they stand somewhere in an expression. -/
structure Flags where
  /-- Letters match in either case. -/
  ignoreCase : Bool := false
  /-- Characters, not bytes, are matched. -/
  unicode : Bool := true
  /-- Blanks are skipped, and so is what follows a number sign on its line. -/
  verbose : Bool := false
deriving DecidableEq, Repr, Inhabited

namespace Flags

def switch (flags : Flags) (letter : Char) (on : Bool) : Flags :=
  match letter with
  | 'i' => { flags with ignoreCase := on }
  | 'u' => { flags with unicode := on }
  | 'x' => { flags with verbose := on }
  | _ => flags

/-- Reads letters of flags up to a colon or a closing parenthesis, which is left. Letters behind
the one dash that there may be are switched off. No letter may stand twice, and the dash not at
the end; `seen` holds the letters so far, `dash` tells whether the dash came, and `dangling`
whether it came last. -/
def read (flags : Flags) (seen : List Char) (dash dangling : Bool) :
    List Char → Option (Flags × List Char × List Char)
  | [] => none
  | c :: cs =>
    if c = ':' ∨ c = ')' then
      if dangling then none else some (flags, seen, c :: cs)
    else if c = '-' then
      if dash then none else read flags seen true true cs
    else if flagLetters.contains c && !seen.contains c then
      read (flags.switch c !dash) (c :: seen) dash false cs
    else none

end Flags

end VertexSweep.Regex
