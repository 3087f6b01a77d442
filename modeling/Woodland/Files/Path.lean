import Woodland.Files.Fault

/-! Paths as texts of names between slashes. -/

namespace Woodland.Path

def nameLimit : Nat := 255

def limit : Nat := 4095

def check (path : String) : Except FileFault Unit :=
  if path.isEmpty then .error .notFound
  else if limit < path.utf8ByteSize then .error .nameTooLong
  else .ok ()

def names (path : String) : List String := (path.toList.splitOn '/').map String.ofList

/-- The names of a path. A dot only counts at the beginning, and nothing between two slashes does. -/
def components (path : String) : List String :=
  match names path with
  | [] => []
  | first :: rest =>
    [first].filter (· ≠ "") ++ rest.filter fun name => name ≠ "" ∧ name ≠ "."

def isAbsolute (path : String) : Bool := path.toList.head? = some '/'

def parent? (path : String) : Option String :=
  match components path with
  | [] => none
  | names => some ((if isAbsolute path then "/" else "") ++ "/".intercalate names.dropLast)

end Woodland.Path
