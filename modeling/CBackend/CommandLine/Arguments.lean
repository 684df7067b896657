import CBackend.Numeral

/-!
# Arguments

Options are given by a long name after two dashes or by a letter after one.
A value follows its option, after an equals sign or as the next argument;
letters of options without a value may be joined.  Two dashes alone end the
options.  No option may be given twice.

Arguments are read in order up to the first fault or to an option that ends
the reading, so that a fault behind such an option goes unnoticed.
-/

namespace CBackend.CommandLine

inductive ValueKind where
  | text
  /-- A path, which may not be empty. -/
  | path
  | byte
deriving DecidableEq, Repr

inductive OptionKind where
  /-- Present or absent. -/
  | switch
  | value (kind : ValueKind)
  /-- Ends the reading of arguments. -/
  | halt
deriving DecidableEq, Repr

structure OptionSpec where
  long : String
  short : Option Char
  kind : OptionKind
deriving DecidableEq, Repr

/-- An option that was given, with its value if it takes one. -/
structure Given where
  long : String
  value : String
deriving DecidableEq, Repr

/-- A number of one byte, with an optional sign. -/
def byte? (text : String) : Option Nat :=
  match text.toList with
  | '-' :: digits => (natural? digits).bind fun value => if value = 0 then some 0 else none
  | '+' :: digits => natural? digits
  | digits => natural? digits
where
  natural? (digits : List Char) : Option Nat :=
    if digits.isEmpty || !digits.all Char.isDigit then none
    else
      let value := Numeral.ofDigits digits
      if value < 256 then some value else none

/-- Whether a text is a value of a kind. -/
def ValueKind.accepts : ValueKind → String → Bool
  | .text, _ => true
  | .path, value => value != ""
  | .byte, value => (byte? value).isSome

/-- Whether an argument is taken as the value of an option before it. -/
def isValue (argument : String) : Bool :=
  argument == "-" || argument.toList.head? != some '-'

/-- Notes a switch that was not given yet. -/
def note (given : List Given) (spec : OptionSpec) : Option (List Given) :=
  if given.any (·.long == spec.long) then none else some (given ++ [⟨spec.long, ""⟩])

/-- Notes an option that was not given yet, with a value of its kind. -/
def noteValue (given : List Given) (long : String) (kind : ValueKind) (value : String) :
    Option (List Given) :=
  if given.any (·.long == long) || !kind.accepts value then none
  else some (given ++ [⟨long, value⟩])

/-- What one argument comes to. -/
inductive Reading where
  | noted (given : List Given)
  /-- The value of the option is the next argument. -/
  | awaiting (given : List Given) (long : String) (kind : ValueKind)
  | halted (long : String)

/-- Reads the text after two dashes. -/
def readLong (specs : List OptionSpec) (given : List Given) (text : List Char) :
    Option Reading := do
  let name := String.ofList (text.takeWhile (· != '='))
  let spec ← specs.find? (·.long == name)
  match spec.kind, text.dropWhile (· != '=') with
  | .switch, [] => return .noted (← note given spec)
  | .halt, [] => return .halted spec.long
  | .switch, _ | .halt, _ => none
  | .value kind, [] => return .awaiting given spec.long kind
  | .value kind, _ :: value =>
    return .noted (← noteValue given spec.long kind (String.ofList value))

/-- Reads the letters after one dash. -/
def readShort (specs : List OptionSpec) (given : List Given) : List Char → Option Reading
  | [] => some (.noted given)
  | letter :: later => do
    let spec ← specs.find? (·.short == some letter)
    match spec.kind, later with
    | .switch, _ => readShort specs (← note given spec) later
    | .halt, _ => return .halted spec.long
    | .value kind, [] => return .awaiting given spec.long kind
    | .value kind, '=' :: value | .value kind, value =>
      return .noted (← noteValue given spec.long kind (String.ofList value))

/-- Reads an argument, if it is one for options. -/
def readOption (specs : List OptionSpec) (given : List Given) (argument : String) :
    Option (Option Reading) :=
  match argument.toList with
  | '-' :: '-' :: text => some (readLong specs given text)
  | '-' :: letter :: letters => some (readShort specs given (letter :: letters))
  | _ => none

/-- What a list of arguments comes to. -/
inductive Scanned where
  | complete (given : List Given) (positionals : List String)
  | halted (long : String)
deriving DecidableEq, Repr

/-- Takes positionals of given kinds, and gives the kinds that are left. -/
def take (kinds : List ValueKind) : List String → Option (List ValueKind)
  | [] => some kinds
  | argument :: later =>
    match kinds with
    | [] => none
    | kind :: others => if kind.accepts argument then take others later else none

/-- Reads all arguments of a command that takes positionals of given kinds. -/
def scan (specs : List OptionSpec) (kinds : List ValueKind) (given : List Given)
    (positionals : List String) : List String → Option Scanned
  | [] => some (.complete given positionals)
  | "--" :: later => (take kinds later).map fun _ => .complete given (positionals ++ later)
  | argument :: later =>
    match readOption specs given argument with
    | none => do scan specs (← take kinds [argument]) given (positionals ++ [argument]) later
    | some none => none
    | some (some (.halted long)) => some (.halted long)
    | some (some (.noted noted)) => scan specs kinds noted positionals later
    | some (some (.awaiting noted long kind)) =>
      match later with
      | [] => none
      | value :: after =>
        if isValue value then do
          scan specs kinds (← noteValue noted long kind value) positionals after
        else none

/-- What stands before the name of a command comes to. -/
inductive Entered where
  | command (name : String) (arguments : List String)
  | halted (long : String)
deriving DecidableEq, Repr

/-- Reads the options before the name of a command.  None of them takes a
value. -/
def enter (specs : List OptionSpec) (given : List Given) : List String → Option Entered
  | [] => none
  | "--" :: _ => none
  | argument :: later =>
    match readOption specs given argument with
    | none => some (.command argument later)
    | some (some (.halted long)) => some (.halted long)
    | some (some (.noted noted)) => enter specs noted later
    | some _ => none

end CBackend.CommandLine
