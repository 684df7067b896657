import CBackend.Files.FileSystem
import CBackend.Files.Path

/-!
# A disk in memory

A tree of directories and files with the failures of a POSIX system.  Paths
start at the root of the tree or at the working directory, and the parent of
the root is the root itself.
-/

namespace CBackend

inductive Node where
  | file (bytes : ByteArray)
  | directory

instance : DecidableEq Node
  | .directory, .directory => isTrue rfl
  | .directory, .file _ | .file _, .directory => isFalse nofun
  | .file left, .file right =>
    if same : left.data = right.data then isTrue (congrArg Node.file (ByteArray.ext same))
    else isFalse fun equal => same (congrArg ByteArray.data (Node.file.inj equal))

structure Disk where
  home : List String
  /-- What is below the root, each at its components from the root. -/
  nodes : List (List String × Node)

namespace Disk

def node? (disk : Disk) : List String → Option Node
  | [] => some .directory
  | place => disk.nodes.lookup place

def erase (disk : Disk) (place : List String) : Disk :=
  { disk with nodes := disk.nodes.filter (·.1 ≠ place) }

def put (disk : Disk) (place : List String) (node : Node) : Disk :=
  { disk with nodes := (place, node) :: (disk.erase place).nodes }

/-- A place and all places above it, from the root on. -/
def lineage : List String → List (List String)
  | [] => [[]]
  | first :: later => [] :: (lineage later).map (first :: ·)

/-- Makes a directory and those it stands in, unless there is something. -/
def makeDirectory (disk : Disk) (place : List String) : Disk :=
  (lineage place).foldl (fun disk place =>
    if (disk.node? place).isSome then disk else disk.put place .directory) disk

/-- Puts a file at a place, with the directories it stands in. -/
def makeFile (disk : Disk) (place : List String) (bytes : ByteArray) : Disk :=
  (disk.makeDirectory place.dropLast).put place (.file bytes)

/-- A disk with nothing but its working directory. -/
def empty (home : List String) : Disk := makeDirectory ⟨home, []⟩ home

/-- What is below the working directory, each at its components from
there. -/
def contents (disk : Disk) : List (List String × Node) :=
  disk.nodes.filterMap fun (place, node) =>
    if disk.home.isPrefixOf place ∧ place ≠ disk.home then
      some (place.drop disk.home.length, node)
    else none

def nameLimit : Nat := 255

def pathLimit : Nat := 4095

/-- Follows components from a place, which must be a directory as long as
there is one more. -/
def follow (disk : Disk) (place : List String) : List String → Except SystemError (List String)
  | [] => .ok place
  | component :: later =>
    match disk.node? place with
    | none => .error .notFound
    | some (.file _) => .error .notADirectory
    | some .directory =>
      if Path.isTrivial component then disk.follow place later
      else if component = ".." then disk.follow place.dropLast later
      else if nameLimit < component.utf8ByteSize then .error .nameTooLong
      else disk.follow (place ++ [component]) later

/-- Refuses the texts that are no path, whatever is on the disk. -/
def validate (path : String) : Except SystemError Unit :=
  if path.toList.contains '\x00' then .error .zeroInPath
  else if path = "" then .error .notFound
  else if pathLimit < path.utf8ByteSize then .error .nameTooLong
  else .ok ()

/-- Where a path starts. -/
def origin (disk : Disk) (path : String) : List String :=
  if Path.isAbsolute path then [] else disk.home

/-- The place that a path leads to, where there may be nothing yet. -/
def locate (disk : Disk) (path : String) : Except SystemError (List String) := do
  validate path
  disk.follow (disk.origin path) (Path.components path)

def read (disk : Disk) (path : String) : Except SystemError String := do
  match disk.node? (← disk.locate path) with
  | none => throw .notFound
  | some .directory => throw .isADirectory
  | some (.file bytes) =>
    match String.fromUTF8? bytes with
    | some text => return text
    | none => throw .notText

/-- Puts bytes at a path that is not a directory. -/
def store (disk : Disk) (path : String) (bytes : ByteArray) : Except SystemError Disk := do
  let place ← disk.locate path
  if disk.node? place = some .directory then throw .isADirectory
  return disk.put place (.file bytes)

/-- A path without the slashes at its end. -/
def withoutSlashes (path : String) : String :=
  String.ofList (path.toList.reverse.dropWhile (· == '/')).reverse

/-- Moves a file.  The target may not end in a dot component, and for a file
not in a slash.  Slashes at its end count for its length, but lead no
further. -/
def rename (disk : Disk) (source target : String) : Except SystemError Disk := do
  let old ← disk.locate source
  validate target
  let components := Path.components (withoutSlashes target)
  let new ← disk.follow (disk.origin target) components
  if (components.getLast?.any fun last => Path.isTrivial last || last == "..") then
    throw .busy
  match disk.node? old with
  | none => throw .notFound
  | some .directory => throw .isADirectory
  | some (.file bytes) =>
    if withoutSlashes target ≠ target then throw .notADirectory
    if disk.node? new = some .directory then throw .isADirectory
    return (disk.erase old).put new (.file bytes)

/-- Removes the file at a path, if there is one. -/
def remove (disk : Disk) (path : String) : Disk :=
  match disk.locate path with
  | .error _ => disk
  | .ok place =>
    match disk.node? place with
    | some (.file _) => disk.erase place
    | _ => disk

/-- Goes on with the disk that a step gives, or with the same one if it
fails. -/
def attempt (step : Disk → Except SystemError Disk) : StateM Disk (Except SystemError Unit) :=
  fun disk =>
    match step disk with
    | .ok next => (.ok (), next)
    | .error cause => (.error cause, disk)

instance : FileSystem (StateM Disk) where
  read path := do return (← get).read path
  create path := attempt fun disk => disk.store path ByteArray.empty
  write path contents := attempt fun disk => disk.store path contents.toUTF8
  flush _ := return .ok ()
  sync _ := return .ok ()
  rename source target := attempt fun disk => disk.rename source target
  remove path := modify fun disk => disk.remove path

end Disk

end CBackend
