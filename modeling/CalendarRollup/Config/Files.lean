import CalendarRollup.Config.Fault

/-! Directories and files by their paths, as far as reading a file and opening a log need them.
Paths start at a working directory, or at the root where they begin with a slash. -/
namespace CalendarRollup

inductive FileEntry where
  | file (content : String)
  | directory (entries : List (String × FileEntry))
  deriving Repr, Inhabited

abbrev Directory := List (String × FileEntry)

namespace Directory

/-- Puts an entry in the place of the one under a name, or at the end. -/
def insert (directory : Directory) (name : String) (entry : FileEntry) : Directory :=
  match directory with
  | [] => [(name, entry)]
  | (n, e) :: rest => if n = name then (name, entry) :: rest else (n, e) :: insert rest name entry

/-- The directory under a name, or an empty one. -/
def inner (directory : Directory) (name : String) : Directory :=
  match directory.lookup name with
  | some (.directory entries) => entries
  | _ => []

/-- Puts an entry under a path of names, with the directories that lead to it. -/
def store (entry : FileEntry) : List String → Directory → Directory
  | [], directory => directory
  | [name], directory => insert directory name entry
  | name :: rest, directory =>
    insert directory name (.directory (store entry rest (inner directory name)))

end Directory

/-- A directory, with those above it from the nearest to the root, each with the name that leads on
from it. -/
structure Place where
  here : Directory
  above : List (String × Directory)
  deriving Repr

namespace Place

/-- The root is above itself. -/
def up (place : Place) : Place :=
  match place.above with
  | [] => place
  | (_, directory) :: rest => ⟨directory, rest⟩

/-- The root directory that has this place in it. -/
def root (place : Place) : Directory :=
  place.above.foldl (fun inner (name, directory) => directory.insert name (.directory inner))
    place.here

def maxNameBytes : Nat := 255

/-- Follows names through directories. -/
def walk (place : Place) : List String → Except FileFault Place
  | [] => .ok place
  | name :: rest =>
    if name = "" ∨ name = "." then place.walk rest
    else if name = ".." then place.up.walk rest
    else if maxNameBytes < name.utf8ByteSize then .error .nameTooLong
    else match List.lookup name place.here with
      | some (.directory inner) => walk ⟨inner, (name, place.here) :: place.above⟩ rest
      | some (.file _) => .error .notDirectory
      | none => .error .missing

end Place

structure Files where
  root : Directory
  deriving Repr

namespace Files

/-- The directory that relative paths start at. -/
def workingDirectory : List String := ["srv", "work"]

/-- A working directory with some files in it, each under a path of names. -/
def ofList (files : List (String × String)) : Files where
  root := files.foldl
    (fun root (path, content) =>
      root.store (.file content) (workingDirectory ++ path.splitOn "/"))
    (Directory.store (.directory []) workingDirectory [])

/-- The names of a path; empty ones come from slashes in a row or at an end. -/
def names (path : String) : List String := path.splitOn "/"

def isAbsolute (names : List String) : Bool := 1 < names.length && names.head? == some ""

/-- The place that a path starts at. -/
def origin (files : Files) (names : List String) : Place :=
  let root : Place := ⟨files.root, []⟩
  if isAbsolute names then root
  else match root.walk workingDirectory with
    | .ok place => place
    | .error _ => root

def maxPathBytes : Nat := 4095

/-- The length of the path that some names make. -/
def pathBytes (names : List String) : Nat := ("/".intercalate names).utf8ByteSize

/-- What no path may be. -/
def pathFault? (names : List String) : Option FileFault :=
  if names.any fun name => name.toList.contains '\x00' then some .nulInName
  else if pathBytes names = 0 then some .missing
  else if maxPathBytes < pathBytes names then some .nameTooLong
  else none

/-- Names that stay in the directory they stand in. -/
def staysHere (name : String) : Bool := name == "" || name == "."

/-- Names, in reverse, without those at the end that stay where they are; the first one counts in
any case. -/
def trimmed : List String → List String
  | [] => []
  | last :: before =>
    if staysHere last && !before.isEmpty then trimmed before else last :: before

/-- The names, in reverse, of the directory that a path leads into. -/
def parentNames (path : String) : List String := trimmed (trimmed (names path).reverse).tail

/-- The path of the directory that a path leads into. -/
def parent (path : String) : String := "/".intercalate (parentNames path).reverse

/-- The last name of a path and the names before it; blanks after the last slash do not count. -/
def lastName (names : List String) : List String × String :=
  match names.reverse.dropWhile (· == "") with
  | [] => ([], "")
  | last :: before => (before.reverse, last)

def endsInSlash (names : List String) : Bool :=
  1 < names.length && names.getLast? == some ""

def isDots (name : String) : Bool := staysHere name || name == ".."

/-- The text of a file. -/
def read (files : Files) (path : String) : Except FileFault String := do
  let names := names path
  if let some fault := pathFault? names then throw fault
  let (before, last) := lastName names
  let place ← (files.origin names).walk before
  if isDots last then throw .isDirectory
  if Place.maxNameBytes < last.utf8ByteSize then throw .nameTooLong
  match place.here.lookup last with
  | none => throw .missing
  | some (.directory _) => throw .isDirectory
  | some (.file content) => if endsInSlash names then throw .notDirectory else return content

/-- Makes one directory inside another that is there. -/
def makeDirectory (files : Files) (names : List String) : Except FileFault Files := do
  if let some fault := pathFault? names then throw fault
  let (before, last) := lastName names
  let place ← (files.origin names).walk before
  if isDots last then throw .present
  if Place.maxNameBytes < last.utf8ByteSize then throw .nameTooLong
  if (place.here.lookup last).isSome then throw .present
  return ⟨Place.root { place with here := place.here.insert last (.directory []) }⟩

/-- Whether names lead to a directory. -/
def leadsToDirectory (files : Files) (names : List String) : Bool :=
  match (files.origin names).walk names with
  | .ok _ => true
  | .error _ => false

/-- Makes a directory, or takes the one that is there. -/
def takeDirectory (files : Files) (names : List String) : Except FileFault Files :=
  match files.makeDirectory names with
  | .error .present => if files.leadsToDirectory names then .ok files else .error .present
  | result => result

/-- Makes a directory with all those that lead to it, given by its names in reverse. Nothing is to
be made for the root, and for the working directory. -/
def makeDirectories (files : Files) : List String → Except FileFault Files
  | [] => .ok files
  | last :: before =>
    if before.isEmpty && last.isEmpty then .ok files
    else if staysHere last && !before.isEmpty then files.makeDirectories before
    else
      let names := (last :: before).reverse
      match files.takeDirectory names with
      | .error .missing => do
        let files ← files.makeDirectories before
        files.takeDirectory names
      | result => result

/-- What becomes of a file that is there already when it is opened to be written. -/
inductive IfExists where
  | fail
  | truncate
  | append
  deriving DecidableEq, Repr

/-- Opens a file to be written, and makes the directories that lead to it: what it holds then. -/
def openForWriting (files : Files) (path : String) (ifExists : IfExists) :
    Except FileFault String := do
  let files ← files.makeDirectories (parentNames path)
  let names := names path
  if let some fault := pathFault? names then throw fault
  let (before, last) := lastName names
  let place ← (files.origin names).walk before
  let ofDirectory : FileFault := if ifExists = .fail then .present else .isDirectory
  if isDots last then throw ofDirectory
  if endsInSlash names then throw .isDirectory
  if Place.maxNameBytes < last.utf8ByteSize then throw .nameTooLong
  match place.here.lookup last, ifExists with
  | none, _ => return ""
  | some (.directory _), _ => throw ofDirectory
  | some (.file _), .fail => throw .present
  | some (.file _), .truncate => return ""
  | some (.file content), .append => return content

end Files
end CalendarRollup
