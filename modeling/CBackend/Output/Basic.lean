import CBackend.Lowering.Definition
import CBackend.Lowering.Interface

/-!
# Output units

The text generated for a program, in two parts that are written to one file
or to two.
-/

namespace CBackend

structure OutputUnit where
  header : String
  body : String
deriving DecidableEq, Repr

namespace OutputUnit

def asOneFile (unit : OutputUnit) : String := unit.header ++ "\n" ++ unit.body

/-- The body as a file that includes the header by name. -/
def including (unit : OutputUnit) (header : String) : String :=
  "#include \"" ++ header ++ "\"\n\n" ++ unit.body

end OutputUnit

/-- The output of a whole program.  The header comes first, also for
failures. -/
def Program.output (program : Program) : Except LoweringError OutputUnit := do
  let header ← program.header
  let source ← program.source
  return ⟨header.text, source.text⟩

end CBackend
