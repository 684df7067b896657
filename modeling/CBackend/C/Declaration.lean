import CBackend.Numeral

/-!
# C declarations

A declaration is a specifier followed by a declarator, and a declarator is a
name with pointers, array dimensions and parameter lists around it.  It is
kept as a tree, and its text is determined by the tree.  An empty name gives
the spelling of a type alone.

Dimensions are written in hexadecimal digits.
-/

namespace CBackend.C

mutual

structure Declaration where
  specifier : Specifier
  declarator : Declarator

inductive Specifier where
  | void
  | named (name : String)
  | tagged (tag : String)
  | anonymous (members : List Declaration)

inductive Declarator where
  | name (text : String)
  | pointer (inner : Declarator)
  | group (inner : Declarator)
  | array (inner : Declarator) (dimension : Nat)
  | function (inner : Declarator) (params : List Declaration)

end

/-- A type and what it declares, with a blank between them if anything is
declared. -/
def declaring (type declared : String) : String :=
  if declared = "" then type else type ++ " " ++ declared

mutual

def Declaration.text : Declaration → String
  | ⟨specifier, declarator⟩ => declaring specifier.text declarator.text

def Specifier.text : Specifier → String
  | .void => "void"
  | .named name => name
  | .tagged tag => "struct " ++ tag
  | .anonymous members => "struct\x7b" ++ membersText members ++ "\x7d"

def Declarator.text : Declarator → String
  | .name text => text
  | .pointer inner => "*" ++ inner.text
  | .group inner => "(" ++ inner.text ++ ")"
  | .array inner dimension => inner.text ++ "[" ++ Numeral.hex dimension ++ "]"
  | .function inner params => inner.text ++ "(" ++ paramsText params ++ ")"

/-- Members, each closed by a semicolon. -/
def membersText : List Declaration → String
  | [] => ""
  | member :: later => member.text ++ ";" ++ membersText later

/-- Parameters separated by commas; an empty list is written `void`. -/
def paramsText : List Declaration → String
  | [] => "void"
  | first :: later => first.text ++ moreParamsText later

/-- Further parameters, each after a comma. -/
def moreParamsText : List Declaration → String
  | [] => ""
  | param :: later => "," ++ param.text ++ moreParamsText later

end

def Declarator.declared : Declarator → String
  | .name text => text
  | .pointer inner | .group inner | .array inner _ | .function inner _ => inner.declared

structure StructDefinition where
  tag : String
  members : List Declaration

def StructDefinition.text (definition : StructDefinition) : String :=
  "struct " ++ definition.tag ++ "\x7b" ++ membersText definition.members ++ "\x7d"

end CBackend.C
