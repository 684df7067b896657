import CBackend.CommandLine.Run

/-!
# The command line program
-/

namespace CBackend

/-- The failure that an error of the operating system stands for. -/
def systemError : IO.Error → SystemError
  | .noFileOrDirectory .. => .notFound
  | .resourceBusy .. => .busy
  | .inappropriateType _ 20 _ => .notADirectory
  | .inappropriateType _ 21 _ => .isADirectory
  | .invalidArgument _ 36 _ => .nameTooLong
  | error => .other (toString error)

/-- An action whose failure is given back. -/
def attemptAction (action : IO α) : IO (Except SystemError α) := do
  try
    return .ok (← action)
  catch error =>
    return .error (systemError error)

def readText (path : String) : IO (Except SystemError String) := do
  match ← attemptAction (IO.FS.readBinFile path) with
  | .error cause => return .error cause
  | .ok bytes =>
    match String.fromUTF8? bytes with
    | some text => return .ok text
    | none => return .error .notText

instance : FileSystem IO where
  read path := readText path
  create path := attemptAction (IO.FS.writeFile path "")
  write path contents := attemptAction (IO.FS.writeFile path contents)
  flush _ := return .ok ()
  sync _ := return .ok ()
  rename source target := attemptAction (IO.FS.rename source target)
  remove path := discard (attemptAction (IO.FS.removeFile path))

end CBackend

open CBackend in
def main (arguments : List String) : IO UInt32 := do
  let mark := toString (← IO.monoNanosNow)
  let outcome ← CommandLine.run mark arguments
  IO.print outcome.printed
  if let some complaint := outcome.complaint? then
    IO.eprintln complaint
  if outcome = .misused then
    IO.eprint CommandLine.usageText
  return outcome.status.toUInt32
