import CBackend.Description.Build
import CBackend.Files.FileSystem

/-!
# Programs described by files
-/

namespace CBackend

/-- The program described by the file at a path.  A given size of pointers
wins over the one of the description. -/
def Program.fromFile [Monad m] [FileSystem m] (path : String)
    (pointerSize : Option PointerSize) : m (Except DescriptionError Program) := do
  match ← FileSystem.read path with
  | .error cause => return .error (.unreadable path cause)
  | .ok text => return Program.ofText text pointerSize

end CBackend
