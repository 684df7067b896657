import CBackend.C.Statement

/-!
# C files

The two parts of a generated unit.  A header announces the tags of all
structs, defines them and gives the prototypes of the functions; a source
gives the prototypes of the functions linked from outside and then the
definitions.
-/

namespace CBackend.C

structure Header where
  tags : List String
  structs : List StructDefinition
  prototypes : List Declaration

def Header.text (header : Header) : String :=
  "#pragma once\n#include <stdint.h>\n" ++
    String.join (header.tags.map fun tag => "struct " ++ tag ++ ";\n") ++
    String.join (header.structs.map fun definition => definition.text ++ ";\n") ++
    String.join (header.prototypes.map fun prototype => prototype.text ++ ";\n")

structure Source where
  /-- Prototypes of the functions that are linked from outside. -/
  linked : List Declaration
  definitions : List Definition

/-- An empty line stands between a definition and whatever comes before it. -/
def Source.text (source : Source) : String :=
  let linked := String.join
    (source.linked.map fun prototype => "extern " ++ prototype.text ++ ";\n")
  let definitions := "\n".intercalate (source.definitions.map Definition.text)
  if source.linked.isEmpty || source.definitions.isEmpty then linked ++ definitions
  else linked ++ "\n" ++ definitions

end CBackend.C
