import VertexSweep.Command.Session

/-! The command line: sessions on the files of the operating system. -/

namespace VertexSweep

/-- The number of the system error for a directory in the place of a file. -/
def directoryError : UInt32 := 21

/-- The number of the system error for a name that is too long. -/
def nameError : UInt32 := 36

/-- Whether a system error is the one with the given number; the number may come negated. -/
def isError (expected number : UInt32) : Bool := number == expected || number == 0 - expected

/-- What an error of the operating system means for a file. -/
def fileFaultOf : IO.Error → FileFault
  | .inappropriateType _ number _ =>
    if isError directoryError number then .isDirectory else .notDirectory
  | .invalidArgument _ number _ => if isError nameError number then .nameTooLong else .nulInName
  | .permissionDenied .. => .denied
  | _ => .notFound

/-- Tells a result from an error of the operating system. -/
def attempt {α : Type} (action : IO α) : IO (Except FileFault α) := do
  try return .ok (← action)
  catch e => return .error (fileFaultOf e)

/-- Reading and writing the files of the operating system. -/
def diskAccess : FileAccess IO where
  read name := attempt (IO.FS.readBinFile name)
  write name content := attempt (IO.FS.writeFile name content)

end VertexSweep

/-- Carries out the command line, and exits with the code of the session. -/
def main (args : List String) : IO UInt32 := do
  let environment ← IO.getEnv "VERTEXSWEEP_LOG"
  let exit ← VertexSweep.Command.session VertexSweep.diskAccess environment args
  IO.print exit.stdout
  IO.eprint exit.stderr
  return UInt32.ofNat exit.code
