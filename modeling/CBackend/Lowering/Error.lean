import CBackend.Numeral
import CBackend.Program.Instruction
import CBackend.TypeStore.Error

/-!
# Causes of failure in lowering

The first failure ends the lowering of the whole program.

Two more causes belong to generation as a whole and are not found here.  That
a file cannot be written is a failure of the output, `WriteError`, since
lowering writes no files.  That a text cannot be formatted never happens,
because texts are built in memory.
-/

namespace CBackend

/-- What the generated C has no form for. -/
inductive Limitation where
  /-- A function whose single result is an array; `declarator` is the text
  of what is declared. -/
  | arrayResult (result declarator : String)
  | arrayRegister (register : RegisterNumber) (function : String)
  | definedResults (function : String) (count : Nat)
  | returnedResults (count : Nat) (function : String)
  | calledResults (callee : String) (count : Nat)
deriving DecidableEq, Repr

namespace Limitation

def text : Limitation → String
  | .arrayResult result declarator => s!"array-typed result '{result}' of '{declarator}'"
  | .arrayRegister register function => s!"array-typed register %{register} in '{function}'"
  | .definedResults function count => s!"definition of '{function}' with {count} results"
  | .returnedResults count function => s!"return of {count} results from '{function}'"
  | .calledResults callee count => s!"call to '{callee}' returning {count} results"

end Limitation

/-- A number of arguments and a number of results. -/
structure Arity where
  args : Nat
  results : Nat
deriving DecidableEq, Repr

inductive LoweringError where
  /-- A basic code has no name in C. -/
  | unnamed (code : BasicCode)
  | store (cause : StoreError)
  | missingCallee (number : CalleeNumber)
  | missingRegister (function : String) (register : RegisterNumber)
  | wrongArity (callee : String) (expected given : Arity)
  /-- A struct holds another by value whose definition comes later. -/
  | incomplete (struct needs : String)
  /-- Two natives have one link symbol and different prototypes. -/
  | symbolClash (symbol first second : String)
  /-- The names of the inline functions being expanded, and the one that
  is expanded again. -/
  | endlessExpansion (chain : List String)
  | limitation (construct : Limitation)
deriving DecidableEq, Repr

namespace LoweringError

def message : LoweringError → String
  | .unnamed basic =>
    let code := Numeral.octal basic.code.toNat
    s!"basic type code {code} has no C equivalent"
  | .store cause => cause.message
  | .missingCallee number => s!"undefined callee @{number}"
  | .missingRegister function register =>
    s!"function '{function}' uses register %{register}, which is not declared"
  | .wrongArity callee ⟨params, outputs⟩ ⟨args, results⟩ =>
    s!"'{callee}' takes {params} argument(s) and {outputs} result(s), " ++
      s!"invoked with {args} and {results}"
  | .incomplete struct needs =>
    s!"struct '{struct}' embeds '{needs}' by value before its body is emitted"
  | .symbolClash symbol first second =>
    s!"natives '{first}' and '{second}' share link symbol '{symbol}' with different prototypes"
  | .endlessExpansion chain => "recursive inline expansion: " ++ " -> ".intercalate chain
  | .limitation construct => "not yet supported: " ++ construct.text

def report (cause : LoweringError) : Report := .lowering cause.message

end LoweringError

/-- A failure of the store ends the lowering that met it. -/
instance : MonadLift (Except StoreError) (Except LoweringError) where
  monadLift
    | .ok value => .ok value
    | .error cause => .error (.store cause)

end CBackend
