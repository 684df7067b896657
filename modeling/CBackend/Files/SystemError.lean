/-!
# Failures of the file system
-/

namespace CBackend

inductive SystemError where
  | notFound
  | busy
  | notADirectory
  | isADirectory
  | nameTooLong
  /-- The text of a file is not encoded as UTF-8. -/
  | notText
  /-- A path contains the character zero. -/
  | zeroInPath
  /-- Any other failure, in the words of the system. -/
  | other (message : String)
deriving DecidableEq, Repr

namespace SystemError

def message : SystemError → String
  | .notFound => "No such file or directory (os error 2)"
  | .busy => "Device or resource busy (os error 16)"
  | .notADirectory => "Not a directory (os error 20)"
  | .isADirectory => "Is a directory (os error 21)"
  | .nameTooLong => "File name too long (os error 36)"
  | .notText => "stream did not contain valid UTF-8"
  | .zeroInPath => "file name contained an unexpected NUL byte"
  | .other message => message

end SystemError

end CBackend
