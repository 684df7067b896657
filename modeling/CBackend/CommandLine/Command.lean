import CBackend.CommandLine.Arguments

/-!
# Commands

What can be asked for on the command line, and how arguments spell it.
-/

namespace CBackend.CommandLine

inductive Command where
  | version
  | help
  /-- Generates C from a description. -/
  | compile (input : String) (output header : Option String) (bytes : Option Nat) (listing : Bool)
  /-- Shows the signature of a type of a description. -/
  | inspect (input type : String) (bytes : Option Nat)
deriving DecidableEq, Repr

def verboseOption : OptionSpec := ⟨"verbose", some 'v', .switch⟩
def helpOption : OptionSpec := ⟨"help", some 'h', .halt⟩
def versionOption : OptionSpec := ⟨"version", some 'V', .halt⟩
def outputOption : OptionSpec := ⟨"output", some 'o', .value .path⟩
def headerOption : OptionSpec := ⟨"header", none, .value .path⟩
def pointerSizeOption : OptionSpec := ⟨"pointer-width", none, .value .byte⟩
def listingOption : OptionSpec := ⟨"dump", none, .switch⟩

def valueOf (given : List Given) (spec : OptionSpec) : Option String :=
  (given.find? (·.long == spec.long)).map Given.value

def bytesOf (given : List Given) : Option Nat := (valueOf given pointerSizeOption).bind byte?

def compile? (arguments : List String) : Option Command := do
  let specs :=
    [verboseOption, helpOption, outputOption, headerOption, pointerSizeOption, listingOption]
  match ← scan specs [.path] [] [] arguments with
  | .halted _ => return .help
  | .complete given [input] =>
    return .compile input (valueOf given outputOption) (valueOf given headerOption)
      (bytesOf given) (valueOf given listingOption).isSome
  | .complete .. => none

def inspect? (arguments : List String) : Option Command := do
  let specs := [verboseOption, helpOption, pointerSizeOption]
  match ← scan specs [.path, .text] [] [] arguments with
  | .halted _ => return .help
  | .complete given [input, type] =>
    return .inspect input type (bytesOf given)
  | .complete .. => none

/-- Help may be asked for one command. -/
def help? : List String → Option Command
  | [] | ["gen"] | ["signature"] | ["help"] => some .help
  | _ => none

/-- The command that arguments spell, if they spell one. -/
def Command.ofArguments? (arguments : List String) : Option Command := do
  match ← enter [verboseOption, helpOption, versionOption] [] arguments with
  | .halted long => return if long == versionOption.long then .version else .help
  | .command "gen" rest => compile? rest
  | .command "signature" rest => inspect? rest
  | .command "help" rest => help? rest
  | .command .. => none

end CBackend.CommandLine
