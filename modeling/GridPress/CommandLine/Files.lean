import GridPress.Bytes
import GridPress.Text.Blank

namespace GridPress.CommandLine

-- Why a path cannot be read or written.
inductive PathFault where
  | missing
  | notDirectory
  | isDirectory
  | nameTooLong
  | other (text : String)
deriving DecidableEq

def PathFault.message : PathFault → String
  | missing => "No such file or directory (os error 2)"
  | notDirectory => "Not a directory (os error 20)"
  | isDirectory => "Is a directory (os error 21)"
  | nameTooLong => "File name too long (os error 36)"
  | other text => text

-- Where lines go: to the report on standard output, or to the summary on standard error.
inductive Channel where
  | report
  | summary
deriving DecidableEq

-- A line that is printed tells whether it got through.
structure System (m : Type → Type) where
  read  : String → m (Except PathFault Bytes)
  write : String → Bytes → m (Except PathFault Unit)
  print : Channel → String → m Bool

-- What a path is followed for.
inductive Access where
  | reading
  | writing
deriving DecidableEq

-- The sizes in bytes that names and paths are limited to.
def longestName : Nat := 255

def longestPath : Nat := 4095

-- Files by the shortest ways to them from the working directory. The way to a file in it is the
-- file's name; others go through directories and have slashes in them. The working directory has no
-- directories in it, so a path leads through it, through those above it or through the root.
structure Files where
  entries : List (String × Bytes) := []
deriving DecidableEq

namespace Files

variable (fs : Files)

def find? (name : String) : Option Bytes :=
  fs.entries.lookup name

-- The file, in the place of an earlier one of that name.
def put (name : String) (bs : Bytes) : Files :=
  ⟨(name, bs) :: fs.entries.filter fun e => e.1 != name⟩

-- Whether a way is that to a file in the working directory.
def isInside (way : String) : Bool :=
  way.toList.all (· ≠ '/')

-- The way to the directory above another. The root is above itself.
def above (way : String) : String :=
  if way = "/" then way else way ++ "../"

-- The names that a path is made of.
def names (path : String) : List String :=
  ((Text.separate '/' path.toList).map String.ofList).filter (· ≠ "")

-- Follows names from a directory to a file. A slash behind the last name asks for a directory; to
-- write there is refused before it is looked for.
def follow (access : Access) (slash : Bool) (way : String) : List String → Except PathFault String
  | [] => .error .isDirectory
  | name :: names =>
    if name = "." then
      follow access slash way names
    else if name = ".." then
      follow access slash (above way) names
    else if names.isEmpty && slash && access = .writing then
      .error .isDirectory
    else if longestName < name.utf8ByteSize then
      .error .nameTooLong
    else if names.isEmpty && !slash then
      .ok (way ++ name)
    else if (fs.find? (way ++ name)).isSome then
      .error .notDirectory
    else
      .error .missing

-- The way to the file that a path leads to, be there such a file or not.
def locate (access : Access) (path : String) : Except PathFault String :=
  if longestPath < path.utf8ByteSize then
    .error .nameTooLong
  else
    let start := if path.toList.head? = some '/' then "/" else ""
    fs.follow access (path.toList.getLast? = some '/') start (names path)

def read (path : String) : Except PathFault Bytes := do
  let way ← fs.locate .reading path
  match fs.find? way with
  | some bs => .ok bs
  | none => .error .missing

-- A write that fails changes nothing.
def write (path : String) (bs : Bytes) : Except PathFault Files := do
  return fs.put (← fs.locate .writing path) bs

theorem find?_put (name : String) (bs : Bytes) : (fs.put name bs).find? name = some bs := by
  simp [put, find?]

theorem find?_put_of_ne {name other : String} (bs : Bytes) (h : other ≠ name) :
    (fs.put name bs).find? other = fs.find? other := by
  have hne : (other == name) = false := by simpa using h
  simp only [put, find?, List.lookup_cons, hne]
  induction fs.entries with
  | nil => rfl
  | cons e es ih =>
    obtain ⟨n, cs⟩ := e
    by_cases hn : n = name
    · simp [List.lookup_cons, hn, hne, ih]
    · by_cases ho : other == n <;> simp [List.lookup_cons, hn, ho, ih]

end Files

structure Machine where
  files   : Files       := {}
  report  : List String := []
  summary : List String := []
deriving DecidableEq

-- A line gets through on the channels that are open.
def Machine.system (isOpen : Channel → Bool) : System (StateM Machine) where
  read path s := (s.files.read path, s)
  write path bs s :=
    match s.files.write path bs with
    | .ok files => (.ok (), { s with files })
    | .error e => (.error e, s)
  print channel line s :=
    if isOpen channel then
      match channel with
      | .report => (true, { s with report := s.report ++ [line] })
      | .summary => (true, { s with summary := s.summary ++ [line] })
    else
      (false, s)

end GridPress.CommandLine
