import CBackend.Files.SystemError

/-!
# What is asked of a file system

The program is written against these operations, so that it means the same
on the real file system and on one that is only a value.
-/

namespace CBackend

class FileSystem (m : Type → Type) where
  read (path : String) : m (Except SystemError String)
  /-- Makes an empty file, or empties the one that is there. -/
  create (path : String) : m (Except SystemError Unit)
  /-- Hands over the contents of a file just made. -/
  write (path contents : String) : m (Except SystemError Unit)
  /-- Waits until the contents were passed to the system. -/
  flush (path : String) : m (Except SystemError Unit)
  /-- Waits until the contents are on the medium. -/
  sync (path : String) : m (Except SystemError Unit)
  /-- Moves a file, in one step, over whatever file stands at the target. -/
  rename (source target : String) : m (Except SystemError Unit)
  /-- Removes a file; nothing is said if that fails. -/
  remove (path : String) : m Unit

end CBackend
