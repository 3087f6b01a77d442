import Woodland.Document.Settings
import Woodland.Files.Access
import Woodland.Files.Path

/-! Settings kept in files. -/

namespace Woodland.Settings

variable {m : Type → Type} [Monad m] [FileAccess m]

def load (path : String) : m (Except Error Settings) := do
  match ← FileAccess.read path with
  | .error fault => return .error (.file fault)
  | .ok text => return ofText text

def save (s : Settings) (path : String) : m (Except Error Unit) := do
  let made : Except FileFault Unit ← match Path.parent? path with
    | some directory => FileAccess.createDirectories directory
    | none => pure (.ok ())
  match made with
  | .error fault => return .error (.file fault)
  | .ok () => return (← FileAccess.write path s.text).mapError .file

end Woodland.Settings
