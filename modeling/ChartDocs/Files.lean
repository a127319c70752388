import ChartDocs.Text.Split

/-!
# A tree of files

A file stands at a place: the names that lead to it from the root, its own last. A command makes and
replaces files but no directories: those are the ones that files lie in, the working directory and
others that may be empty, and all that lie above them.

A path is followed name by name, from the root if it starts with a slash and from the working
directory otherwise, so the first name that cannot be followed decides the fault. The last name of a
path is looked up by its use: reading fails for what is no file, and writing creates or replaces a
file. A slash after the last name asks for a directory.
-/

namespace ChartDocs

open Text

/-- What a file holds. -/
inductive Content where
  | text (content : String)
  /-- Octets that are no text. -/
  | bytes (octets : List UInt8)
deriving DecidableEq, Repr, Inhabited

/-- Why a file cannot be read or written. -/
inductive FileFault where
  /-- There is nothing at the path. -/
  | missing
  /-- A file stands where the path needs a directory. -/
  | notDirectory
  /-- A directory stands where the path needs a file. -/
  | directory
  /-- The path or one of its names is too long. -/
  | nameTooLong
  /-- The path holds a null character. -/
  | nullInName
  /-- The octets of the file are no text. -/
  | notText
  /-- Any other reason, in the words of the system. -/
  | other (reason : String)
deriving DecidableEq, Repr, Inhabited

/-- The wording of a fault. -/
def FileFault.message : FileFault → String
  | missing => "No such file or directory (os error 2)"
  | notDirectory => "Not a directory (os error 20)"
  | directory => "Is a directory (os error 21)"
  | nameTooLong => "File name too long (os error 36)"
  | nullInName => "file name contained an unexpected NUL byte"
  | notText => "stream did not contain valid UTF-8"
  | other reason => reason

/-- The text of a file that was read. -/
def Content.text? : Content → Except FileFault String
  | text content => .ok content
  | bytes _ => .error .notText

/-- The directories that are there whether files lie in them or not. What lies above one of them is
a directory as well. -/
structure Directories where
  /-- The working directory; without one, paths start from the root. -/
  working : List String := []
  /-- Directories that may be empty. -/
  others : List (List String) := []
deriving DecidableEq, Repr, Inhabited

/-- Whether a place is one of the directories or lies above one. -/
def Directories.has (directories : Directories) (place : List String) : Bool :=
  (directories.working :: directories.others).any fun directory => place.isPrefixOf directory

/-- What a path leads to. -/
inductive Target where
  | directory
  /-- A name in a directory; a slash after it asks for a directory. -/
  | name (parent : List String) (name : String) (slash : Bool)
deriving DecidableEq, Repr

/-- Files by place. -/
structure Files where
  entries : List (List String × Content)
deriving DecidableEq, Repr, Inhabited

namespace Files

/-- The number of octets of a name that is too long begins above this bound. -/
def nameLimit : Nat := 255

/-- The number of octets of a path lies below this bound. -/
def pathLimit : Nat := 4096

/-- Whether a place is a directory: one of the directories, or what lies above a file. -/
def isDirectory (files : Files) (place : List String) (directories : Directories) : Bool :=
  directories.has place ||
    files.entries.any fun entry => entry.1 ≠ place && place.isPrefixOf entry.1

/-- The names between the slashes of a path. -/
def names (path : String) : List String :=
  (splitAt '/' path.toList).map String.ofList

/-- Whether a name between slashes leaves the directory as it is. -/
def isIdle (name : String) : Bool :=
  name = "" || name = "."

/-- The file or directory name at the end of a path. -/
def fileName? (path : String) : Option String :=
  match ((names path).filter (!isIdle ·)).getLast? with
  | some name => if name = ".." then none else some name
  | none => none

/-- What the file of a name in a directory holds, if it is a file. -/
def fileAt? (files : Files) (parent : List String) (name : String) : Option Content :=
  files.entries.lookup (parent ++ [name])

/-- Go from a directory to one in it. -/
def enter (files : Files) (parent : List String) (name : String) (directories : Directories) :
    Except FileFault (List String) :=
  if nameLimit < name.utf8ByteSize then .error .nameTooLong
  else if (files.fileAt? parent name).isSome then .error .notDirectory
  else if files.isDirectory (parent ++ [name]) directories then .ok (parent ++ [name])
  else .error .missing

/-- Follow the names of a path from a directory; above the root is the root. -/
def follow (files : Files) (here : List String) (names : List String) (directories : Directories) :
    Except FileFault Target :=
  match names with
  | [] => .ok .directory
  | name :: rest =>
    if isIdle name then files.follow here rest directories
    else if name = ".." then files.follow here.dropLast rest directories
    else if rest.all (· = "") then .ok (.name here name (rest ≠ []))
    else
      match files.enter here name directories with
      | .ok inner => files.follow inner rest directories
      | .error fault => .error fault

/-- The directory from which a path is followed. -/
def start (path : String) (directories : Directories) : List String :=
  if path.toList.head? = some '/' then [] else directories.working

/-- What a path leads to. -/
def locate (files : Files) (path : String) (directories : Directories) :
    Except FileFault Target :=
  if path = "" then .error .missing
  else if path.toList.contains '\x00' then .error .nullInName
  else if pathLimit ≤ path.utf8ByteSize then .error .nameTooLong
  else files.follow (start path directories) (names path) directories

/-- What the file at a path holds. -/
def read (files : Files) (path : String) (directories : Directories := {}) :
    Except FileFault Content :=
  match files.locate path directories with
  | .error fault => .error fault
  | .ok .directory => .error .directory
  | .ok (.name parent name slash) =>
    if nameLimit < name.utf8ByteSize then .error .nameTooLong
    else
      match files.fileAt? parent name with
      | some content => if slash then .error .notDirectory else .ok content
      | none =>
        .error (if files.isDirectory (parent ++ [name]) directories then .directory else .missing)

/-- A path can start from the root and lead through directories above. -/
example : ∀ path ∈ ["values.yaml", "/charts/web/values.yaml", "../web/values.yaml"],
    ((Files.mk [(["charts", "web", "values.yaml"], .text "a: 1")]).read path
      { working := ["charts", "web"] }).toOption = some (.text "a: 1") := by decide +kernel

/-- Set what the file at a place holds. -/
def put (place : List String) (content : Content) :
    List (List String × Content) → List (List String × Content)
  | [] => [(place, content)]
  | (other, old) :: rest =>
    if other = place then (place, content) :: rest else (other, old) :: put place content rest

/-- The files after a text has been written to a path. -/
def write (files : Files) (path text : String) (directories : Directories := {}) :
    Except FileFault Files :=
  match files.locate path directories with
  | .error fault => .error fault
  | .ok .directory => .error .directory
  | .ok (.name parent name slash) =>
    if slash then .error .directory
    else if nameLimit < name.utf8ByteSize then .error .nameTooLong
    else if files.isDirectory (parent ++ [name]) directories then .error .directory
    else .ok ⟨put (parent ++ [name]) (.text text) files.entries⟩

end Files

end ChartDocs
