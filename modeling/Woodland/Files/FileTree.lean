import Woodland.Files.Access
import Woodland.Files.Path

/-!
Files and directories as a value. Directories are numbered, and a name in one of them leads to a file
or on to another directory.
-/

namespace Woodland

inductive FileTree.Entry where
  | directory (number : Nat)
  | file (content : ByteArray)

/-- The directories from one up to the root, which itself is left out. -/
abbrev FileTree.Place := List Nat

/-- Entries by the number of a directory and a name in it; `home` is where a path without a root starts. -/
structure FileTree where
  home : FileTree.Place
  entries : List ((Nat × String) × FileTree.Entry)

inductive FileTree.Target where
  | directory (place : FileTree.Place)
  | file (content : ByteArray)

namespace FileTree

def empty : FileTree := ⟨[], []⟩

def Place.number (place : Place) : Nat := place.headD 0

def entry? (t : FileTree) (place : Place) (name : String) : Option Entry :=
  t.entries.lookup (Place.number place, name)

def insert (t : FileTree) (place : Place) (name : String) (e : Entry) : FileTree :=
  { t with entries := ((Place.number place, name), e) :: t.entries }

def fresh (t : FileTree) : Nat := t.entries.length + 1

def ofHome (names : List String) : FileTree :=
  names.foldl
    (fun t name => { t.insert t.home name (.directory t.fresh) with home := t.fresh :: t.home }) empty

def start (t : FileTree) (path : String) : Place := if Path.isAbsolute path then [] else t.home

def walk (t : FileTree) (place : Place) : List String → Except FileFault Target
  | [] => .ok (.directory place)
  | name :: rest =>
    if name = "" ∨ name = "." then t.walk place rest
    else if name = ".." then t.walk place.tail rest
    else if Path.nameLimit < name.utf8ByteSize then .error .nameTooLong
    else
      match t.entry? place name with
      | some (.directory n) => t.walk (n :: place) rest
      | some (.file content) => if rest.isEmpty then .ok (.file content) else .error .notADirectory
      | none => .error .notFound

def textAt (t : FileTree) (path : String) : Except FileFault String := do
  Path.check path
  match ← t.walk (t.start path) (Path.names path) with
  | .directory _ => throw .isADirectory
  | .file content =>
    match String.fromUTF8? content with
    | some text => return text
    | none => throw .notText

/-- A path that ends in a slash names a directory, even where nothing is. -/
def writeText (t : FileTree) (path text : String) : Except FileFault FileTree := do
  Path.check path
  let names := (Path.names path).filter (· ≠ "")
  match ← t.walk (t.start path) names.dropLast with
  | .file _ => throw .notADirectory
  | .directory place =>
    match names.getLast? with
    | none | some "." | some ".." => throw .isADirectory
    | some name =>
      if path.endsWith "/" then throw .isADirectory
      if Path.nameLimit < name.utf8ByteSize then throw .nameTooLong
      match t.entry? place name with
      | some (.directory _) => throw .isADirectory
      | _ => return t.insert place name (.file text.toUTF8)

def write (t : FileTree) (path text : String) : Except FileFault Unit × FileTree :=
  match t.writeText path text with
  | .ok changed => (.ok (), changed)
  | .error fault => (.error fault, t)

/--
Makes the directories that are missing, from the root on; those made before a fault stay. A file in the
way is taken for one that is already there if it has the last name or a directory was made before it,
and else for no directory.
-/
def ensure (t : FileTree) (place : Place) (made : Bool) :
    List String → Except FileFault Unit × FileTree
  | [] => (.ok (), t)
  | name :: rest =>
    if name = "" ∨ name = "." then t.ensure place made rest
    else if name = ".." then t.ensure place.tail made rest
    else if Path.nameLimit < name.utf8ByteSize then (.error .nameTooLong, t)
    else
      match t.entry? place name with
      | some (.directory n) => t.ensure (n :: place) made rest
      | some (.file _) => (.error (if made || rest.isEmpty then .alreadyThere else .notADirectory), t)
      | none => (t.insert place name (.directory t.fresh)).ensure (t.fresh :: place) true rest

def makeDirectories (t : FileTree) (path : String) : Except FileFault Unit × FileTree :=
  if Path.limit < path.utf8ByteSize then (.error .nameTooLong, t)
  else t.ensure (t.start path) false (Path.components path)

instance : FileAccess (StateM FileTree) where
  read path := fun t => (t.textAt path, t)
  createDirectories path := fun t => t.makeDirectories path
  write path text := fun t => t.write path text

end FileTree

end Woodland
