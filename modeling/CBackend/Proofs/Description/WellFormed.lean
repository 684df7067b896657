import Mathlib.Logic.Relation
import CBackend.Proofs.Description.Resolution

/-!
# Well-formed descriptions

A description can be wrong in few ways: a name is given twice, a name is used
that nothing has, or something would hold itself by value.  Everything here is
said of the description alone.

Structs may be named everywhere.  A trait or alias may be named in later
entries only, and in all callees.  A mnemonic is always a basic type, so it
embeds nothing.
-/

namespace CBackend.Description

open Relation (TransGen)

namespace TypeEntry

def name : TypeEntry → String
  | .struct name _ | .trait name _ | .aliasOf name _ => name

def isStruct : TypeEntry → Bool
  | .struct .. => true
  | .trait .. | .aliasOf .. => false

def fieldNames : TypeEntry → List String
  | .struct _ fields => fields.map FieldTerm.name
  | .trait .. | .aliasOf .. => []

/-- The names of types in an entry, at any depth. -/
def references : TypeEntry → List String
  | .struct _ fields => fields.flatMap FieldTerm.references
  | .trait _ prototypes => prototypes.flatMap PrototypeTerm.references
  | .aliasOf _ target => target.references

end TypeEntry

/-- The declared type that a term holds by value, if it holds one. -/
def TypeTerm.embedded? : TypeTerm → Option String
  | .named name => if (BasicCode.ofMnemonic? name).isSome then none else some name
  | .pointer .. | .array .. | .function _ => none

def TypeEntry.embedded : TypeEntry → List String
  | .struct _ fields => fields.filterMap fun field => field.type.embedded?
  | .trait .. => []
  | .aliasOf _ target => target.embedded?.toList

/-- Some entry of the one name holds the other by value.  Traits hold nothing
by value, so a walk that goes on is one through structs and aliases. -/
def Embeds (entries : List TypeEntry) (outer inner : String) : Prop :=
  ∃ entry ∈ entries, entry.name = outer ∧ inner ∈ entry.embedded

/-- What may be named after the entries `before`: mnemonics, all structs, and
the traits and aliases among those entries. -/
def Nameable (types before : List TypeEntry) (name : String) : Prop :=
  (BasicCode.ofMnemonic? name).isSome ∨
    (∃ entry ∈ types, entry.isStruct = true ∧ entry.name = name) ∨
    ∃ entry ∈ before, entry.isStruct = false ∧ entry.name = name

/-- An entry that can stand after the entries `before`. -/
structure TypeEntry.Fits (types before : List TypeEntry) (entry : TypeEntry) : Prop where
  fieldsDistinct : entry.fieldNames.Nodup
  nameable : ∀ name ∈ entry.references, Nameable types before name

structure TypesWellFormed (types : List TypeEntry) : Prop where
  namesDistinct : (types.map TypeEntry.name).Nodup
  fits : ∀ before entry after, types = before ++ entry :: after → entry.Fits types before
  acyclic : ∀ name, ¬ TransGen (Embeds types) name name

def InstructionTerm.invoked? : InstructionTerm → Option String
  | .invoke callee _ _ => some callee
  | .compute .. | .branch .. | .jump _ | .leave => none

namespace BodyTerm

def references (body : BodyTerm) : List String := body.registers.flatMap TypeTerm.references

def invoked (body : BodyTerm) : List String :=
  body.blocks.flatMap fun block => block.filterMap InstructionTerm.invoked?

end BodyTerm

namespace CalleeEntry

/-- The names of types in the signature and in the registers. -/
def references : CalleeEntry → List String
  | .native _ _ signature => signature.references
  | .inlined _ signature body | .compiled _ signature body =>
    signature.references ++ body.references

def invoked : CalleeEntry → List String
  | .native .. => []
  | .inlined _ _ body | .compiled _ _ body => body.invoked

end CalleeEntry

structure WellFormed (description : Description) : Prop where
  types : TypesWellFormed description.types
  calleesDistinct : (description.callees.map CalleeEntry.name).Nodup
  nameable : ∀ entry ∈ description.callees, ∀ name ∈ entry.references,
    Nameable description.types description.types name
  invokable : ∀ entry ∈ description.callees, ∀ name ∈ entry.invoked,
    name ∈ description.callees.map CalleeEntry.name

end CBackend.Description
