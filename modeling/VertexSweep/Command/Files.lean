import VertexSweep.Fault

/-! Files, as a command reads and writes them, and a store of files in memory. A path is walked
name by name, from the root if it starts with a slash and from the working directory otherwise. A
dot stays, two dots go up, and every name but the last must be that of a directory, as must the
last if a slash follows. Directories hold what the store has in them; besides, there are the
working directory, those above it and some at the root. -/

namespace VertexSweep

/-- How files are read and written in a monad. -/
structure FileAccess (m : Type → Type) where
  read : String → m (Except FileFault ByteArray)
  /-- Makes a file with the given content, or replaces it. -/
  write : String → String → m (Except FileFault Unit)

namespace FileStore

/-- A place in the tree of files: the names that lead to it from the working directory, which may
begin with some that go up, or from the root, which then stands in front as a slash. -/
abbrev Place := List String

def root : Place := ["/"]

def nullDevice : Place := ["/", "dev", "null"]

/-- The names of directories at the root. -/
def rootDirectories : List String :=
  ["bin", "dev", "etc", "home", "lib", "opt", "proc", "root", "run", "sbin", "sys", "tmp", "usr",
    "var"]

/-- The directory around a place; the root is around itself. -/
def parent (place : Place) : Place :=
  match place.getLast? with
  | none => [".."]
  | some name =>
    if name = ".." then place ++ [".."] else if place = root then root else place.dropLast

/-- The place that a walk of one step leads to. -/
def enter (place : Place) (name : String) : Place :=
  if name = "." then place else if name = ".." then parent place else place ++ [name]

/-- Where the walk along a path begins. -/
def origin (path : String) : Place := if path.startsWith "/" then root else []

def names (path : String) : List String := (path.splitOn "/").filter (· != "")

/-- Whether a path ends in a slash. -/
def endsInSlash (path : String) : Bool := path.toList.getLast? == some '/'

/-- The greatest number of bytes in a name. -/
def maxName : Nat := 255

/-- The greatest number of bytes in a path. -/
def maxPath : Nat := 4095

end FileStore

/-- Files in memory, the latest first. -/
structure FileStore where
  files : List (FileStore.Place × ByteArray) := [(FileStore.nullDevice, .empty)]

namespace FileStore

def put (s : FileStore) (path : String) (content : ByteArray) : FileStore :=
  ⟨((names path).foldl enter (origin path), content) :: s.files⟩

def isDirectory (s : FileStore) (place : Place) : Bool :=
  place == root || place.all (· == "..") || rootDirectories.any (place == ["/", ·]) ||
    s.files.any fun file => place.length < file.1.length && place.isPrefixOf file.1

/-- The directory that names lead to from a place. -/
def walk (s : FileStore) (place : Place) : List String → Except FileFault Place
  | [] => .ok place
  | name :: names =>
    let next := enter place name
    if maxName < name.utf8ByteSize then .error .nameTooLong
    else if s.isDirectory next then s.walk next names
    else if (s.files.lookup next).isSome then .error .notDirectory
    else .error .notFound

/-- The place of a file, if its path does not mean a directory. -/
def locate (s : FileStore) (path : String) : Except FileFault Place := do
  if path.toList.contains '\x00' then .error .nulInName
  else if path.isEmpty then .error .notFound
  else if maxPath < path.utf8ByteSize then .error .nameTooLong
  else
    let names := names path
    let place ← s.walk (origin path) names.dropLast
    match names.getLast? with
    | none => .error .isDirectory
    | some name => return enter place name

/-- Fails if the last name of a path is too long. -/
def checkLast (path : String) : Except FileFault Unit :=
  if (names path).getLast?.any (maxName < ·.utf8ByteSize) then .error .nameTooLong else .ok ()

def read (s : FileStore) (path : String) : Except FileFault ByteArray := do
  let place ← s.locate path
  checkLast path
  if s.isDirectory place then .error .isDirectory
  else match s.files.lookup place with
    | none => .error .notFound
    | some content => if endsInSlash path then .error .notDirectory else .ok content

/-- Makes or replaces a file; what is written to the empty file is lost. -/
def write (s : FileStore) (path : String) (content : String) : Except FileFault FileStore := do
  let place ← s.locate path
  if endsInSlash path then .error .isDirectory
  checkLast path
  if s.isDirectory place then .error .isDirectory
  else if place = nullDevice then .ok s
  else .ok ⟨(place, content.toUTF8) :: s.files⟩

/-- Reading and writing the files of a store that is passed along. -/
def access : FileAccess (StateM FileStore) where
  read path := do return (← get).read path
  write path content := do
    match (← get).write path content with
    | .ok s =>
      set s
      return .ok ()
    | .error fault => return .error fault

end FileStore

end VertexSweep
