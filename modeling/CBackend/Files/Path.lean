/-!
# Paths

A path is a text of components separated by slashes.  Its file name is the
last component that is not empty and not a single dot; a path that ends in
two dots has none.
-/

namespace CBackend.Path

/-- The texts between the slashes. -/
def split : List Char → List (List Char)
  | [] => [[]]
  | '/' :: later => [] :: split later
  | c :: later =>
    match split later with
    | [] => [[c]]
    | first :: others => (c :: first) :: others

def components (path : String) : List String := (split path.toList).map String.ofList

def isAbsolute (path : String) : Bool := path.toList.head? == some '/'

/-- Components that lead nowhere. -/
def isTrivial (component : String) : Bool := component == "" || component == "."

/-- The components before the file name, and the file name. -/
def parts? (path : String) : Option (List String × String) :=
  match (components path).reverse.dropWhile isTrivial with
  | [] | ".." :: _ => none
  | name :: before => some (before.reverse, name)

def fileName? (path : String) : Option String := (parts? path).map (·.2)

/-- The path of a name in the directory that components lead to. -/
def join (directory : List String) (name : String) : String :=
  String.join (directory.map (· ++ "/")) ++ name

/-- The path with a name made from its file name; what stands before the file
name is kept as it is written.  A path without a file name stays as it is. -/
def renamed (path : String) (rename : String → String) : String :=
  match parts? path with
  | some (directory, name) => join directory (rename name)
  | none => path

/-- A directory without the components at its end that lead nowhere.  The
first component stays, since it tells where the path starts. -/
def tidied (directory : List String) : List String :=
  match directory.reverse.dropWhile isTrivial with
  | [] => directory.take 1
  | kept => kept.reverse

/-- The path of the file beside the one at `path` under a name made from its
name, if it has one. -/
def beside? (path : String) (rename : String → String) : Option String :=
  (parts? path).map fun (directory, name) => join (tidied directory) (rename name)

/-- A file name up to its last dot.  A dot at the front begins the name. -/
def stem (name : String) : String :=
  match name.toList.reverse.dropWhile (· != '.') with
  | [] | ['.'] => name
  | _ :: before => String.ofList before.reverse

/-- A file name without its extension, but with the dot before it. -/
def bare (name : String) : String :=
  match name.toList.reverse.dropWhile (· != '.') with
  | [] | ['.'] => name
  | kept => String.ofList kept.reverse

/-- The path with another extension.  The old one is taken off first; where
that leaves two dots, they name no file, and the path stays so. -/
def withExtension (path extension : String) : String :=
  renamed (renamed path bare) fun name => stem name ++ "." ++ extension

end CBackend.Path
