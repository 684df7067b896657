import CBackend.Report
import CBackend.Files.FileSystem
import CBackend.Files.Path
import CBackend.Output.Basic

/-!
# Writing output

Each file is written under a temporary name beside it and then moved into
place, so that a reader sees the old file or the complete new one.  All files
are written before the first is moved.  A failure while writing leaves every
destination as it was; a failed move leaves those moved before it.  In every
case no temporary stays behind.

The mark sets the temporaries of one run apart from those of another.
-/

namespace CBackend

inductive WriteCause where
  | noFileName
  | noHeaderName
  | system (cause : SystemError)
deriving DecidableEq, Repr

def WriteCause.message : WriteCause → String
  | .noFileName => "path has no file name"
  | .noHeaderName => "header path has no file name"
  | .system cause => cause.message

structure WriteError where
  path : String
  cause : WriteCause
deriving DecidableEq, Repr

namespace WriteError

def message (error : WriteError) : String :=
  "failed to write " ++ error.path ++ ": " ++ error.cause.message

def report (error : WriteError) : Report :=
  .io (error.path ++ ": " ++ error.cause.message)

end WriteError

namespace Output

structure File where
  path : String
  contents : String

/-- A file whose contents stand under a temporary name. -/
structure Prepared where
  temporary : String
  path : String

def temporary (mark path : String) : Except WriteError String :=
  match Path.beside? path fun name => name ++ "." ++ mark ++ ".tmp" with
  | none => .error ⟨path, .noFileName⟩
  | some name => .ok name

variable {m : Type → Type} [Monad m] [FileSystem m]

/-- Writes the contents of a file under a given name. -/
def fill (path contents : String) : ExceptT SystemError m Unit := do
  ExceptT.mk (FileSystem.create path)
  ExceptT.mk (FileSystem.write path contents)
  ExceptT.mk (FileSystem.flush path)
  ExceptT.mk (FileSystem.sync path)

def discardAll (prepared : List Prepared) : m Unit :=
  prepared.forM fun file => FileSystem.remove file.temporary

/-- Writes one file under its temporary name. -/
def prepare (mark : String) (file : File) : m (Except WriteError Prepared) :=
  match temporary mark file.path with
  | .error error => return .error error
  | .ok name => do
    match ← (fill name file.contents).run with
    | .ok () => return .ok ⟨name, file.path⟩
    | .error cause =>
      FileSystem.remove name
      return .error ⟨file.path, .system cause⟩

/-- Writes all files under their temporary names, after those that are
already prepared. -/
def prepareAll (mark : String) (prepared : List Prepared) :
    List File → m (Except WriteError (List Prepared))
  | [] => return .ok prepared
  | file :: later => do
    match ← prepare mark file with
    | .ok next => prepareAll mark (prepared ++ [next]) later
    | .error error =>
      discardAll prepared
      return .error error

/-- Moves prepared files into place, one after the other. -/
def settle : List Prepared → m (Except WriteError Unit)
  | [] => return .ok ()
  | file :: later => do
    match ← FileSystem.rename file.temporary file.path with
    | .ok () => settle later
    | .error cause =>
      discardAll (file :: later)
      return .error ⟨file.path, .system cause⟩

/-- Writes files; nothing moves into place before all of them are prepared. -/
def writeAll (mark : String) (files : List File) : m (Except WriteError Unit) := do
  match ← prepareAll mark [] files with
  | .ok prepared => settle prepared
  | .error error => return .error error

end Output

/-- Writes a unit to one file, or to a source file that includes a separate
header. -/
def OutputUnit.save [Monad m] [FileSystem m] (unit : OutputUnit) (mark source : String)
    (header : Option String) : m (Except WriteError Unit) :=
  match header with
  | none => Output.writeAll mark [⟨source, unit.asOneFile⟩]
  | some path =>
    match Path.fileName? path with
    | none => return .error ⟨path, .noHeaderName⟩
    | some name => Output.writeAll mark [⟨path, unit.header⟩, ⟨source, unit.including name⟩]

end CBackend
