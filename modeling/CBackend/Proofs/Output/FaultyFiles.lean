import CBackend.Files.FileSystem
import Mathlib.Logic.Function.Basic
import Mathlib.Data.List.Nodup

/-!
# A file system that may fail

Files are a map from paths to contents.  A pattern of faults says which
operations fail on which path, with which cause, and what a failed attempt
leaves at the path.  What was written reaches the file when it is flushed.  A
move replaces its target in one step or does nothing, and removal succeeds.
-/

namespace CBackend

abbrev Files := String → Option String

namespace Files

/-- The files after a list of paths was given new contents. -/
def put (files : Files) : List (String × String) → Files
  | [] => files
  | (path, contents) :: later => put (Function.update files path (some contents)) later

/-- The files without those at the given paths. -/
def without (files : Files) (paths : List String) : Files := fun path =>
  if path ∈ paths then none else files path

variable {files : Files} {entries : List (String × String)} {paths : List String} {path : String}

theorem put_cons (path contents : String) : files.put ((path, contents) :: entries) =
    put (Function.update files path (some contents)) entries := rfl

theorem put_of_not_mem (outside : path ∉ entries.map Prod.fst) :
    files.put entries path = files path := by
  induction entries generalizing files with
  | nil => rfl
  | cons entry later induction =>
      obtain ⟨different, outside⟩ := not_or.mp (mt List.mem_cons.mpr outside)
      exact (induction outside).trans (Function.update_of_ne different _ _)

theorem put_of_mem (distinct : (entries.map Prod.fst).Nodup) {contents : String}
    (member : (path, contents) ∈ entries) : files.put entries path = some contents := by
  induction entries generalizing files with
  | nil => cases member
  | cons entry later induction =>
      obtain ⟨fresh, distinct⟩ := List.nodup_cons.mp distinct
      rcases List.mem_cons.mp member with rfl | member
      · exact (put_of_not_mem fresh).trans (Function.update_self _ _ _)
      · exact induction distinct member

theorem without_nil : files.without [] = files := rfl

theorem without_cons :
    files.without (path :: paths) = without (Function.update files path none) paths := by
  funext other
  by_cases same : other = path <;> simp [without, same]

theorem without_append (more : List String) :
    files.without (paths ++ more) = (files.without paths).without more := by
  funext other
  by_cases first : other ∈ paths <;> simp [without, first]

theorem update_without (kept : path ∉ paths) (contents : Option String) :
    Function.update (files.without paths) path contents =
      without (Function.update files path contents) paths := by
  funext other
  by_cases same : other = path
  · subst same
    simp [without, kept]
  · simp [without, same]

theorem without_put (kept : ∀ path ∈ entries.map Prod.fst, path ∉ paths) :
    (files.put entries).without paths = (files.without paths).put entries := by
  induction entries generalizing files with
  | nil => rfl
  | cons entry later induction =>
      obtain ⟨first, others⟩ := List.forall_mem_cons.mp kept
      rw [put_cons, put_cons, induction others, update_without first]

/-- What is put under absent names and taken away again leaves no trace. -/
theorem put_without (absent : ∀ path ∈ entries.map Prod.fst, files path = none) :
    (files.put entries).without (entries.map Prod.fst) = files := by
  funext path
  by_cases member : path ∈ entries.map Prod.fst
  · simp [without, member, absent path member]
  · rw [without, if_neg member, put_of_not_mem member]

end Files

/-- Files, and what was handed over for them but has not reached them. -/
structure Volume where
  files : Files
  pending : Files

namespace Volume

/-- The volume with another file at a path, or none. -/
def holding (volume : Volume) (path : String) (contents : Option String) : Volume :=
  { volume with files := Function.update volume.files path contents }

/-- The volume after a file was moved. -/
def move (volume : Volume) (source target contents : String) : Volume :=
  (volume.holding source none).holding target (some contents)

theorem move_files (volume : Volume) {source target contents path : String}
    (notSource : path ≠ source) (notTarget : path ≠ target) :
    (volume.move source target contents).files path = volume.files path := by
  simp [move, holding, notSource, notTarget]

end Volume

/-- The operations that may fail. -/
inductive Act where
  | create
  | write
  | flush
  | sync
  | rename
deriving DecidableEq

structure Fault where
  cause : SystemError
  /-- What a failed attempt to fill a file leaves there. -/
  left : Option String

/-- Which operations fail on which paths.  A move goes by the path that it
starts from. -/
abbrev Faults := Act → String → Option Fault

/-- Computations on a volume with the given faults. -/
structure Faulty (faults : Faults) (α : Type) where
  run : Volume → α × Volume

namespace Faulty

variable {faults : Faults}

instance : Monad (Faulty faults) where
  pure value := ⟨fun volume => (value, volume)⟩
  bind first next := ⟨fun volume => (next (first.run volume).1).run (first.run volume).2⟩

/-- An operation that fills a file: it fails as the faults say, and otherwise
has the given effect. -/
def attempt (act : Act) (path : String) (effect : Volume → Volume) :
    Faulty faults (Except SystemError Unit) where
  run volume :=
    match faults act path with
    | some fault => (.error fault.cause, volume.holding path fault.left)
    | none => (.ok (), effect volume)

instance : FileSystem (Faulty faults) where
  read path := ⟨fun volume =>
    match volume.files path with
    | some contents => (.ok contents, volume)
    | none => (.error .notFound, volume)⟩
  create path := attempt .create path fun volume =>
    ⟨Function.update volume.files path (some ""), Function.update volume.pending path none⟩
  write path contents := attempt .write path fun volume =>
    { volume with pending := Function.update volume.pending path (some contents) }
  flush path := attempt .flush path fun volume =>
    match volume.pending path with
    | some contents =>
      ⟨Function.update volume.files path (some contents), Function.update volume.pending path none⟩
    | none => volume
  sync path := attempt .sync path id
  rename source target := ⟨fun volume =>
    match faults .rename source, volume.files source with
    | some fault, _ => (.error fault.cause, volume)
    | none, none => (.error .notFound, volume)
    | none, some contents => (.ok (), volume.move source target contents)⟩
  remove path := ⟨fun volume => ((), volume.holding path none)⟩

variable {act : Act} {path target : String} {effect : Volume → Volume}
  {volume after : Volume} {fault : Fault}

theorem attempt_free (free : faults act path = none) :
    (attempt act path effect : Faulty faults _).run volume = (.ok (), effect volume) := by
  simp [attempt, free]

theorem attempt_fails (fails : faults act path = some fault) :
    (attempt act path effect : Faulty faults _).run volume =
      (.error fault.cause, volume.holding path fault.left) := by
  simp [attempt, fails]

theorem rename_free (free : faults .rename path = none) {contents : String}
    (present : volume.files path = some contents) :
    (FileSystem.rename path target : Faulty faults _).run volume =
      (.ok (), volume.move path target contents) := by
  simp [FileSystem.rename, free, present]

theorem rename_fails (fails : faults .rename path = some fault) :
    (FileSystem.rename path target : Faulty faults _).run volume =
      (.error fault.cause, volume) := by
  simp [FileSystem.rename, fails]

variable {α β ε : Type}

/-- What comes after a step starts from where the step ended. -/
theorem run_bind {step : Faulty faults α} {next : α → Faulty faults β} {value : α}
    (ended : step.run volume = (value, after)) :
    (step >>= next).run volume = (next value).run after := by
  show (next (step.run volume).1).run (step.run volume).2 = _
  rw [ended]

variable {step : Faulty faults (Except ε α)} {rest : α → ExceptT ε (Faulty faults) β}

/-- A sequence goes on after a step that succeeds. -/
theorem run_bind_ok {value : α} (success : step.run volume = (.ok value, after)) :
    (ExceptT.mk step >>= rest).run.run volume = (rest value).run.run after :=
  run_bind success

/-- A sequence ends at a step that fails. -/
theorem run_bind_error {cause : ε} (failure : step.run volume = (.error cause, after)) :
    (ExceptT.mk step >>= rest).run.run volume = (.error cause, after) :=
  run_bind failure

end Faulty

end CBackend
