import CBackend.C.Declaration
import CBackend.Program.Instruction

/-!
# C function bodies

The statements that a lowered function consists of.  Everything a function
declares for itself has a structured name: the registers of the function
and of each inline expansion in it, and one temporary for each callee whose
result is used.  Labels are structured in the same way.  Expansions are
numbered within the function, and their names begin with the number.
-/

namespace CBackend.C

/-- Where a name belongs: to the function itself, or to a numbered inline
expansion in it. -/
inductive Owner where
  | function
  | expansion (number : Nat)
deriving DecidableEq, Repr

/-- What the names of an owner begin with. -/
def Owner.lead : Owner → String
  | .function => ""
  | .expansion number => s!"i{number}_"

inductive Variable where
  | register (owner : Owner) (number : RegisterNumber)
  /-- The temporary for the results of calls to a callee. -/
  | result (callee : String)
  | param (name : String)
deriving DecidableEq, Repr

def Variable.text : Variable → String
  | .register owner number =>
    let lead := owner.lead
    s!"{lead}r{number}"
  | .result callee => callee ++ "_ret"
  | .param name => name

inductive Label where
  | block (owner : Owner) (number : BlockNumber)
  /-- The end of an inline expansion. -/
  | finish (expansion : Nat)
deriving DecidableEq, Repr

def Label.text : Label → String
  | .block owner number =>
    let lead := owner.lead
    s!"{lead}bb{number}"
  | .finish expansion => s!"i{expansion}_end"

def testSign : Comparison → String
  | .equal => "=="
  | .notEqual => "!="
  | .atMost => "<="
  | .below => "<"

def operatorSign : Operator → String
  | .plus => "+"
  | .minus => "-"
  | .times => "*"
  | .over => "/"

inductive Statement where
  | move (target source : Variable)
  | compute (target left : Variable) (operator : Operator) (right : Variable)
  | branch (left : Variable) (test : Comparison) (right : Variable) (target : Label)
  | goto (target : Label)
  | call (target : Option Variable) (symbol : String) (args : List Variable)
  | leave (value : Option Variable)
deriving DecidableEq, Repr

def Statement.text : Statement → String
  | .move target source => target.text ++ " = " ++ source.text ++ ";"
  | .compute target left operator right =>
    target.text ++ " = " ++ left.text ++ " " ++ operatorSign operator ++ " " ++ right.text ++ ";"
  | .branch left test right target =>
    "if (" ++ left.text ++ " " ++ testSign test ++ " " ++ right.text ++ ") goto " ++
      target.text ++ ";"
  | .goto target => "goto " ++ target.text ++ ";"
  | .call target symbol args =>
    let assigned := match target with
      | none => ""
      | some temporary => temporary.text ++ " = "
    assigned ++ symbol ++ "(" ++ ", ".intercalate (args.map Variable.text) ++ ");"
  | .leave none => "return;"
  | .leave (some value) => "return " ++ value.text ++ ";"

/-- One line of a function body, or a nested block. -/
inductive Item where
  | declare (declaration : Declaration)
  | statement (statement : Statement)
  | label (label : Label)
  /-- A label with an empty statement of its own. -/
  | emptyLabel (label : Label)
  | block (items : List Item)

/-- A line at a depth of nesting. -/
def indented (depth : Nat) (line : String) : String :=
  String.join (List.replicate depth "    ") ++ line ++ "\n"

mutual

/-- The lines of an item at a depth of nesting.  Labels stand one level
further out. -/
def Item.text (depth : Nat) : Item → String
  | .declare declaration => indented depth (declaration.text ++ ";")
  | .statement statement => indented depth statement.text
  | .label label => indented (depth - 1) (label.text ++ ":")
  | .emptyLabel label => indented (depth - 1) (label.text ++ ":;")
  | .block items =>
    indented depth "\x7b" ++ itemsText (depth + 1) items ++ indented depth "\x7d"

def itemsText (depth : Nat) : List Item → String
  | [] => ""
  | item :: later => item.text depth ++ itemsText depth later

end

structure Definition where
  head : Declaration
  items : List Item

def Definition.text (definition : Definition) : String :=
  definition.head.text ++ " \x7b\n" ++ itemsText 1 definition.items ++ "\x7d\n"

end CBackend.C
