import Woodland.Files.Fault

/-! What a computation needs of a file system. -/

namespace Woodland

class FileAccess (m : Type → Type) where
  read : String → m (Except FileFault String)
  createDirectories : String → m (Except FileFault Unit)
  write : String → String → m (Except FileFault Unit)

end Woodland
