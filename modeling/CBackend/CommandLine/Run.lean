import CBackend.CommandLine.Command
import CBackend.Description.FromFile
import CBackend.Output.Write
import CBackend.Program.Listing

/-!
# Running commands

A command prints as it goes and ends with success or with the first failure.
What was printed before a failure stays printed.
-/

namespace CBackend.CommandLine

inductive Outcome where
  | done (printed : String)
  | failed (printed : String) (error : Report)
  /-- The arguments do not spell a command. -/
  | misused
deriving DecidableEq, Repr

namespace Outcome

def status : Outcome → Nat
  | .done _ => 0
  | .failed .. => 1
  | .misused => 2

def printed : Outcome → String
  | .done printed | .failed printed _ => printed
  | .misused => ""

/-- The line about the failure of a command. -/
def complaint? : Outcome → Option String
  | .failed _ error => some ("Error: " ++ error.text)
  | .done _ | .misused => none

end Outcome

def versionText : String := "lvmc 0.1.0\n"

def usageText : String :=
  "Usage: lvmc [-v] gen INPUT [-o OUTPUT] [--header HEADER] [--pointer-width N] [--dump]\n" ++
  "       lvmc [-v] signature INPUT TYPE [--pointer-width N]\n"

variable {m : Type → Type} [Monad m]

/-- A run keeps what it printed and may fail. -/
abbrev Run (m : Type → Type) := ExceptT Report (StateT String m)

def print (text : String) : Run m Unit := modify (· ++ text)

/-- Goes on with a result, or fails as its failure is reported. -/
def check (report : ε → Report) : Except ε α → Run m α
  | .ok value => return value
  | .error cause => throw (report cause)

/-- Performs an action of the file system; its failure is reported. -/
def perform (report : ε → Report) (action : m (Except ε α)) : Run m α := do
  check report (← action)

/-- The size of pointers asked for, which must be supported. -/
def checkSize : Option Nat → Run m (Option PointerSize)
  | none => return none
  | some bytes => return some (← check id (PointerSize.ofBytes bytes))

variable [FileSystem m]

/-- Writes the output of the program that a file describes, beside the file
if no other place is given. -/
def compile (mark input : String) (output header : Option String) (bytes : Option Nat)
    (listing : Bool) : Run m Unit := do
  let pointerSize ← checkSize bytes
  let program ← perform DescriptionError.report (Program.fromFile input pointerSize)
  if listing then
    print (← check StoreError.report program.listing)
  let unit ← check LoweringError.report program.output
  let source := output.getD (Path.withExtension input "c")
  perform WriteError.report (unit.save mark source header)

/-- The line that shows a type: identifier, signature and its codes. -/
def signatureLine (name : String) (signature : Signature) : String :=
  let layout := signature.text
  let codes := " ".intercalate (signature.map fun basic => Numeral.octal basic.code.toNat)
  s!"{name} {layout} [{codes}]\n"

/-- Shows one type of the program that a file describes. -/
def inspect (input type : String) (bytes : Option Nat) : Run m Unit := do
  let pointerSize ← checkSize bytes
  let program ← perform DescriptionError.report (Program.fromFile input pointerSize)
  let (number, types) ←
    check DescriptionError.report ((Description.resolveName type).run program.types)
  let signature ← check StoreError.report (types.signature number)
  let name ← check StoreError.report (types.identifier number)
  print (signatureLine name signature)

def Command.run (mark : String) : Command → Run m Unit
  | .version => print versionText
  | .help => print usageText
  | .compile input output header bytes listing =>
    CommandLine.compile mark input output header bytes listing
  | .inspect input type bytes => CommandLine.inspect input type bytes

def run (mark : String) (arguments : List String) : m Outcome :=
  match Command.ofArguments? arguments with
  | none => return .misused
  | some command => do
    match ← (command.run mark).run.run "" with
    | (.ok (), printed) => return .done printed
    | (.error error, printed) => return .failed printed error

end CBackend.CommandLine
