import CBackend.Output.Write
import CBackend.Proofs.Output.FaultyFiles

/-!
# Files are replaced together or one after the other

Whatever fails while files are written, no temporary stays behind and nothing
but the destinations changes.  If a file cannot be prepared, nothing changes
at all; if one cannot be moved into place, those before it are replaced and
no other.  The faults alone tell which of these happens, at which file, and
which error is reported.
-/

namespace CBackend.Output

/-- The temporary names of files; a path without a file name has none. -/
def temporaries (mark : String) (files : List File) : List String :=
  files.filterMap fun file => (temporary mark file.path).toOption

/-- The destinations and temporaries of the files do not get into each
other's way, and no temporary stands in the way before. -/
structure Separate (mark : String) (files : List File) (before : Files) : Prop where
  distinct : (files.map File.path ++ temporaries mark files).Nodup
  absent : ∀ name ∈ temporaries mark files, before name = none

/-- The first fault among the steps that fill a file. -/
def filling (faults : Faults) (name : String) : Option Fault :=
  [Act.create, .write, .flush, .sync].findSome? fun act => faults act name

/-- How preparing a file ends, by the faults alone. -/
def preparing (faults : Faults) (mark : String) (file : File) : Except WriteError Prepared :=
  match temporary mark file.path with
  | .error error => .error error
  | .ok name =>
    match filling faults name with
    | none => .ok ⟨name, file.path⟩
    | some fault => .error ⟨file.path, .system fault.cause⟩

def Prepares (faults : Faults) (mark : String) (file : File) : Prop :=
  ∃ prepared, preparing faults mark file = .ok prepared

/-- Nothing keeps the file from being moved into place. -/
def Moves (faults : Faults) (mark : String) (file : File) : Prop :=
  ∀ name, temporary mark file.path = .ok name → faults .rename name = none

/-- Exactly the given files have been replaced. -/
structure Replaced (before : Files) (files : List File) (after : Files) : Prop where
  replaced : ∀ file ∈ files, after file.path = some file.contents
  kept : ∀ path ∉ files.map File.path, after path = before path

/-- How writing files may end, with the files that are there afterwards. -/
inductive Outcome (faults : Faults) (mark : String) (files : List File) (before : Files) :
    Except WriteError Unit → Files → Prop
  | written {after} (prepared : ∀ file ∈ files, Prepares faults mark file)
      (moved : ∀ file ∈ files, Moves faults mark file) (replaced : Replaced before files after) :
      Outcome faults mark files before (.ok ()) after
  | notPrepared {earlier file later error} (split : files = earlier ++ file :: later)
      (prepared : ∀ other ∈ earlier, Prepares faults mark other)
      (failed : preparing faults mark file = .error error) :
      Outcome faults mark files before (.error error) before
  | notMoved {earlier file later name fault after} (split : files = earlier ++ file :: later)
      (prepared : ∀ other ∈ files, Prepares faults mark other)
      (moved : ∀ other ∈ earlier, Moves faults mark other)
      (named : temporary mark file.path = .ok name) (failed : faults .rename name = some fault)
      (replaced : Replaced before earlier after) :
      Outcome faults mark files before (.error ⟨file.path, .system fault.cause⟩) after

/-- What can be relied on after files were written. -/
structure Atomic (faults : Faults) (mark : String) (files : List File) (before : Files)
    (ended : Except WriteError Unit × Volume) : Prop where
  cleared : ∀ name ∈ temporaries mark files, ended.2.files name = none
  elsewhere : ∀ path ∉ files.map File.path, ended.2.files path = before path
  outcome : Outcome faults mark files before ended.1 ended.2.files

open Faulty

variable {faults : Faults} {fault : Fault} {mark name : String} {file : File} {error : WriteError}
  {files earlier later : List File} {prepared : List Prepared} {volume : Volume}

/-- The temporary name of a file that has one. -/
def temporaryName (mark : String) (file : File) : String :=
  (temporary mark file.path).toOption.getD ""

theorem temporaryName_eq (named : temporary mark file.path = .ok name) :
    temporaryName mark file = name := by
  simp [temporaryName, named, Except.toOption]

theorem Prepares.named (prepares : Prepares faults mark file) :
    temporary mark file.path = .ok (temporaryName mark file) := by
  obtain ⟨prepared, success⟩ := prepares
  cases named : temporary mark file.path with
  | error error => simp [preparing, named] at success
  | ok name => rw [temporaryName_eq named]

theorem temporaries_append : temporaries mark (earlier ++ later) =
    temporaries mark earlier ++ temporaries mark later := List.filterMap_append

theorem temporaries_eq
    (named : ∀ file ∈ files, temporary mark file.path = .ok (temporaryName mark file)) :
    temporaries mark files = files.map (temporaryName mark) := by
  induction files with
  | nil => rfl
  | cons file later induction =>
      obtain ⟨first, others⟩ := List.forall_mem_cons.mp named
      rw [temporaries, List.filterMap_cons_some (by rw [first]; rfl), List.map_cons]
      exact congrArg _ (induction others)

/-- The files as they stand under their temporary names. -/
def standIns (mark : String) (files : List File) : List (String × String) :=
  files.map fun file => (temporaryName mark file, file.contents)

def preparedAs (mark : String) (file : File) : Prepared := ⟨temporaryName mark file, file.path⟩

theorem map_preparedAs :
    (files.map (preparedAs mark)).map Prepared.temporary = files.map (temporaryName mark) :=
  List.map_map

theorem map_standIns : (standIns mark files).map Prod.fst = files.map (temporaryName mark) :=
  List.map_map

theorem fill_succeeds (volume : Volume) (free : filling faults name = none) (contents : String) :
    ∃ after, (fill name contents : ExceptT _ (Faulty faults) _).run.run volume = (.ok (), after) ∧
      after.files = Function.update volume.files name (some contents) := by
  simp only [filling, List.findSome?_eq_none_iff, List.forall_mem_cons] at free
  obtain ⟨create, write, flush, sync, _⟩ := free
  refine ⟨_, (run_bind_ok (attempt_free create)).trans <|
    (run_bind_ok (attempt_free write)).trans <|
    (run_bind_ok (attempt_free flush)).trans (attempt_free sync), ?_⟩
  simp

theorem filling_cases (failed : filling faults name = some fault) :
    faults .create name = some fault ∨
    faults .create name = none ∧ faults .write name = some fault ∨
    faults .create name = none ∧ faults .write name = none ∧ faults .flush name = some fault ∨
    faults .create name = none ∧ faults .write name = none ∧ faults .flush name = none ∧
      faults .sync name = some fault := by
  cases create : faults .create name <;> cases write : faults .write name <;>
    cases flush : faults .flush name <;> simpa [filling, create, write, flush] using failed

/-- Wherever filling a file stops, no other file has changed. -/
theorem fill_fails (volume : Volume) (failed : filling faults name = some fault)
    (contents : String) :
    ∃ after, (fill name contents : ExceptT _ (Faulty faults) _).run.run volume =
        (.error fault.cause, after) ∧
      ∃ left, after.files = Function.update volume.files name left := by
  rcases filling_cases failed with create | ⟨create, write⟩ | ⟨create, write, flush⟩ |
    ⟨create, write, flush, sync⟩
  · exact ⟨_, run_bind_error (attempt_fails create), fault.left, rfl⟩
  · refine ⟨_, (run_bind_ok (attempt_free create)).trans (run_bind_error (attempt_fails write)),
      fault.left, ?_⟩
    simp [Volume.holding]
  · refine ⟨_, (run_bind_ok (attempt_free create)).trans <|
      (run_bind_ok (attempt_free write)).trans (run_bind_error (attempt_fails flush)),
      fault.left, ?_⟩
    simp [Volume.holding]
  · refine ⟨_, (run_bind_ok (attempt_free create)).trans <|
      (run_bind_ok (attempt_free write)).trans <|
      (run_bind_ok (attempt_free flush)).trans (attempt_fails sync), fault.left, ?_⟩
    simp [Volume.holding]

theorem prepare_succeeds (volume : Volume) (prepares : Prepares faults mark file) :
    ∃ after, (prepare mark file : Faulty faults _).run volume =
        (.ok (preparedAs mark file), after) ∧
      after.files =
        Function.update volume.files (temporaryName mark file) (some file.contents) := by
  have named := prepares.named
  have free : filling faults (temporaryName mark file) = none := by
    obtain ⟨prepared, success⟩ := prepares
    simp only [preparing, named] at success
    split at success
    · assumption
    · cases success
  obtain ⟨after, success, files⟩ := fill_succeeds volume free file.contents
  refine ⟨after, ?_, files⟩
  rw [prepare, named]
  exact run_bind success

theorem prepare_fails (failed : preparing faults mark file = .error error)
    (absent : ∀ name, temporary mark file.path = .ok name → volume.files name = none) :
    ∃ after, (prepare mark file : Faulty faults _).run volume = (.error error, after) ∧
      after.files = volume.files := by
  cases named : temporary mark file.path with
  | error cause =>
      rw [preparing, named] at failed
      cases failed
      refine ⟨volume, ?_, rfl⟩
      rw [prepare, named]
      rfl
  | ok name =>
      simp only [preparing, named] at failed
      split at failed
      · cases failed
      · next fault first =>
        cases failed
        obtain ⟨after, failure, left, files⟩ := fill_fails volume first file.contents
        refine ⟨⟨Function.update after.files name none, after.pending⟩, ?_, ?_⟩
        · rw [prepare, named]
          exact run_bind failure
        · simp [files, ← absent name named]

theorem discardAll_run : (discardAll prepared : Faulty faults Unit).run volume =
    ((), { volume with files := volume.files.without (prepared.map Prepared.temporary) }) := by
  induction prepared generalizing volume with
  | nil => rfl
  | cons file later induction =>
      rw [List.map_cons, Files.without_cons]
      exact induction

/-- Preparation goes on behind files that can be prepared. -/
theorem prepareAll_append (volume : Volume) (prepared : List Prepared) (later : List File)
    (prepares : ∀ file ∈ earlier, Prepares faults mark file) :
    ∃ after, (prepareAll mark prepared (earlier ++ later) : Faulty faults _).run volume =
        (prepareAll mark (prepared ++ earlier.map (preparedAs mark)) later :
          Faulty faults _).run after ∧
      after.files = volume.files.put (standIns mark earlier) := by
  induction earlier generalizing volume prepared with
  | nil => exact ⟨volume, by simp, rfl⟩
  | cons file others induction =>
      obtain ⟨first, others⟩ := List.forall_mem_cons.mp prepares
      obtain ⟨middle, success, filled⟩ := prepare_succeeds volume first
      obtain ⟨after, continued, files⟩ :=
        induction middle (prepared ++ [preparedAs mark file]) others
      refine ⟨after, ?_, ?_⟩
      · rw [List.map_cons, List.append_cons, ← continued]
        exact run_bind success
      · rw [files, filled]
        rfl

def destinations (files : List File) : List (String × String) :=
  files.map fun file => (file.path, file.contents)

theorem destinations_cons :
    destinations (file :: later) = (file.path, file.contents) :: destinations later := rfl

theorem map_destinations : (destinations files).map Prod.fst = files.map File.path := List.map_map

/-- The first of several files has a destination and a temporary of its own. -/
theorem distinct_cons
    (distinct : ((file :: later).map File.path ++ (file :: later).map (temporaryName mark)).Nodup) :
    file.path ∉ (file :: later).map (temporaryName mark) ∧
      temporaryName mark file ∉ later.map (temporaryName mark) ∧
      (later.map File.path ++ later.map (temporaryName mark)).Nodup := by
  simp only [List.map_cons, List.cons_append, List.nodup_cons, List.nodup_append, List.mem_append,
    List.mem_cons, not_or] at distinct ⊢
  exact ⟨distinct.1.2, distinct.2.2.1.1, distinct.2.1, distinct.2.2.1.2,
    fun path isPath name isName => distinct.2.2.2 path isPath name (.inr isName)⟩

/-- Moving goes on behind files that can be moved. -/
theorem settle_append (volume : Volume) (rest : List Prepared)
    (moves : ∀ file ∈ earlier, faults .rename (temporaryName mark file) = none)
    (standing : ∀ file ∈ earlier, volume.files (temporaryName mark file) = some file.contents)
    (distinct : (earlier.map File.path ++ earlier.map (temporaryName mark)).Nodup) :
    ∃ after, (settle (earlier.map (preparedAs mark) ++ rest) : Faulty faults _).run volume =
        (settle rest : Faulty faults _).run after ∧
      after.files =
        (volume.files.without (earlier.map (temporaryName mark))).put (destinations earlier) := by
  induction earlier generalizing volume with
  | nil => exact ⟨volume, rfl, rfl⟩
  | cons file others induction =>
      obtain ⟨firstMoves, moves⟩ := List.forall_mem_cons.mp moves
      obtain ⟨firstStands, standing⟩ := List.forall_mem_cons.mp standing
      obtain ⟨apart, fresh, distinct⟩ := distinct_cons distinct
      obtain ⟨different, outside⟩ := not_or.mp (mt List.mem_cons.mpr apart)
      have untouched : ∀ other ∈ others,
          (volume.move (temporaryName mark file) file.path file.contents).files
            (temporaryName mark other) = some other.contents := by
        intro other member
        have isName : temporaryName mark other ∈ others.map (temporaryName mark) :=
          List.mem_map_of_mem member
        rw [volume.move_files (ne_of_mem_of_not_mem isName fresh)
          (ne_of_mem_of_not_mem isName outside)]
        exact standing other member
      obtain ⟨after, continued, files⟩ := induction _ moves untouched distinct
      refine ⟨after, (run_bind (rename_free firstMoves firstStands)).trans continued, ?_⟩
      rw [files, destinations_cons, Files.put_cons, Files.update_without apart, List.map_cons,
        Files.without_cons, Function.update_comm different]
      rfl

theorem replaced_put (before : Files) (distinct : (files.map File.path).Nodup) :
    Replaced before files (before.put (destinations files)) where
  replaced _ member :=
    Files.put_of_mem (map_destinations ▸ distinct) (List.mem_map_of_mem member)
  kept _ outside := Files.put_of_not_mem (map_destinations ▸ outside)

/-- All elements have a property, or there is a first one that does not. -/
theorem all_or_first {α : Type} (property : α → Prop) (items : List α) :
    (∀ item ∈ items, property item) ∨ ∃ earlier item later, items = earlier ++ item :: later ∧
      (∀ other ∈ earlier, property other) ∧ ¬ property item := by
  induction items with
  | nil => exact .inl nofun
  | cons item others induction =>
      by_cases holds : property item
      · rcases induction with all | ⟨earlier, first, later, rfl, before, fails⟩
        · exact .inl (List.forall_mem_cons.mpr ⟨holds, all⟩)
        · exact .inr ⟨item :: earlier, first, later, rfl,
            List.forall_mem_cons.mpr ⟨holds, before⟩, fails⟩
      · exact .inr ⟨[], item, others, rfl, nofun, holds⟩

theorem standIns_names (prepares : ∀ file ∈ files, Prepares faults mark file) :
    (standIns mark files).map Prod.fst = temporaries mark files := by
  rw [map_standIns, temporaries_eq fun file member => (prepares file member).named]

theorem Separate.names_nodup (separate : Separate mark files before) :
    (temporaries mark files).Nodup :=
  (List.nodup_append.mp separate.distinct).2.1

/-- If a file cannot be prepared, everything is as before. -/
theorem writeAll_unprepared (separate : Separate mark (earlier ++ file :: later) volume.files)
    (prepares : ∀ other ∈ earlier, Prepares faults mark other)
    (failed : preparing faults mark file = .error error) :
    ∃ after, (writeAll mark (earlier ++ file :: later) : Faulty faults _).run volume =
        (.error error, after) ∧
      after.files = volume.files := by
  have names := standIns_names prepares
  have distinct := separate.names_nodup
  have absent := separate.absent
  simp only [temporaries_append, ← names] at distinct absent
  obtain ⟨middle, continued, filled⟩ :=
    prepareAll_append volume [] (file :: later) prepares
  have fileAbsent : ∀ name, temporary mark file.path = .ok name → middle.files name = none := by
    intro name named
    have isName : name ∈ temporaries mark (file :: later) :=
      List.mem_filterMap.mpr ⟨file, List.mem_cons_self, by rw [named]; rfl⟩
    rw [filled, Files.put_of_not_mem fun member =>
      (List.nodup_append.mp distinct).2.2 _ member _ isName rfl]
    exact absent name (List.mem_append_right _ isName)
  obtain ⟨after, failure, files⟩ := prepare_fails failed fileAbsent
  refine ⟨{ after with
    files := after.files.without ((earlier.map (preparedAs mark)).map Prepared.temporary) },
    ?_, ?_⟩
  · have stopped : (prepareAll mark (earlier.map (preparedAs mark)) (file :: later) :
        Faulty faults _).run middle = (.error error, _) :=
      (run_bind failure).trans (run_bind discardAll_run)
    exact run_bind (continued.trans stopped)
  · rw [map_preparedAs, files, filled, ← map_standIns]
    exact Files.put_without fun name member => absent name (List.mem_append_left _ member)

/-- Once all files are prepared and the first of them moved, what was done
so far is that these are replaced, up to the temporaries of the others. -/
theorem writeAll_moved (separate : Separate mark (earlier ++ later) volume.files)
    (prepares : ∀ file ∈ earlier ++ later, Prepares faults mark file)
    (moves : ∀ file ∈ earlier, Moves faults mark file) :
    ∃ middle, (writeAll mark (earlier ++ later) : Faulty faults _).run volume =
        (settle (later.map (preparedAs mark)) : Faulty faults _).run middle ∧
      middle.files.without (later.map (temporaryName mark)) =
        volume.files.put (destinations earlier) := by
  have names := standIns_names prepares
  obtain ⟨distinct, absent⟩ := separate
  rw [← names, map_standIns] at distinct
  rw [← names] at absent
  obtain ⟨staged, continued, filled⟩ := prepareAll_append volume [] [] prepares
  have standing : ∀ file ∈ earlier,
      staged.files (temporaryName mark file) = some file.contents := by
    intro file member
    rw [filled]
    apply Files.put_of_mem
    · rw [map_standIns]
      exact (List.nodup_append.mp distinct).2.1
    · exact List.mem_map_of_mem (List.mem_append_left _ member)
  have free : ∀ file ∈ earlier, faults .rename (temporaryName mark file) = none := by
    intro file member
    exact moves file member _ (prepares file (List.mem_append_left _ member)).named
  have distinctEarlier : (earlier.map File.path ++ earlier.map (temporaryName mark)).Nodup := by
    rw [List.map_append, List.map_append] at distinct
    refine distinct.sublist (List.Sublist.append ?_ ?_)
    · exact List.sublist_append_left _ _
    · exact List.sublist_append_left _ _
  obtain ⟨middle, settled, files⟩ :=
    settle_append staged (later.map (preparedAs mark)) free standing distinctEarlier
  refine ⟨middle, ?_, ?_⟩
  · rw [← settled, ← List.map_append]
    rw [List.append_nil] at continued
    exact run_bind continued
  · rw [files, Files.without_put, ← Files.without_append, ← List.map_append, filled, ← map_standIns,
      Files.put_without absent]
    intro path isPath isName
    rw [map_destinations] at isPath
    rw [List.map_append, List.map_append] at distinct
    exact (List.nodup_append.mp distinct).2.2 _ (List.mem_append_left _ isPath) _
      (List.mem_append_right _ isName) rfl

theorem Separate.outside (separate : Separate mark files before) :
    ∀ name ∈ temporaries mark files, name ∉ files.map File.path := by
  intro name isName isPath
  exact (List.nodup_append.mp separate.distinct).2.2 name isPath name isName rfl

/-- Only destinations change, however writing ends. -/
theorem Outcome.elsewhere (outcome : Outcome faults mark files before result after) :
    ∀ path ∉ files.map File.path, after path = before path := by
  intro path outside
  cases outcome with
  | written prepared moved replaced => exact replaced.kept path outside
  | notPrepared split prepared failed => rfl
  | notMoved split prepared moved named failed replaced =>
      subst split
      rw [List.map_append] at outside
      exact replaced.kept path fun isPath => outside (List.mem_append_left _ isPath)

theorem Outcome.atomic (separate : Separate mark files before)
    (outcome : Outcome faults mark files before result after.files) :
    Atomic faults mark files before (result, after) where
  cleared name isName :=
    (outcome.elsewhere name (separate.outside name isName)).trans (separate.absent name isName)
  elsewhere := outcome.elsewhere
  outcome := outcome

theorem writeAll_outcome (faults : Faults) (separate : Separate mark files volume.files) :
    ∃ result after, (writeAll mark files : Faulty faults _).run volume = (result, after) ∧
      Outcome faults mark files volume.files result after.files := by
  rcases all_or_first (Prepares faults mark) files with
    prepares | ⟨earlier, file, later, rfl, before, unprepared⟩
  · have distinct := (List.nodup_append.mp separate.distinct).1
    rcases all_or_first (Moves faults mark) files with
      moves | ⟨earlier, file, later, rfl, before, stuck⟩
    · rw [← List.append_nil files] at separate prepares
      obtain ⟨after, ended, written⟩ := writeAll_moved separate prepares moves
      rw [List.append_nil] at ended prepares
      rw [List.map_nil, Files.without_nil] at written
      refine ⟨_, after, ended, .written prepares moves ?_⟩
      rw [written]
      exact replaced_put _ distinct
    · obtain ⟨name, named, fault, failed⟩ : ∃ name, temporary mark file.path = .ok name ∧
          ∃ fault, faults .rename name = some fault := by
        simpa [Moves, Option.ne_none_iff_exists'] using stuck
      obtain ⟨middle, moved, written⟩ := writeAll_moved separate prepares before
      refine ⟨_, _, moved.trans ((run_bind (rename_fails ?_)).trans (run_bind discardAll_run)),
        .notMoved rfl prepares before named failed ?_⟩
      · rw [preparedAs, temporaryName_eq named]
        exact failed
      · rw [← List.map_cons, map_preparedAs, written]
        rw [List.map_append] at distinct
        exact replaced_put _ (List.nodup_append.mp distinct).1
  · cases failed : preparing faults mark file with
    | ok prepared => exact absurd ⟨prepared, failed⟩ unprepared
    | error error =>
        obtain ⟨after, failure, files⟩ := writeAll_unprepared separate before failed
        refine ⟨_, after, failure, ?_⟩
        rw [files]
        exact .notPrepared rfl before failed

/-- Files are written all or nothing up to the moves, which follow each other
in the order of the files.  A unit with a header of its own is two files, the
header and then the source that includes it by name. -/
theorem writing_is_atomic (faults : Faults) (mark : String) (volume : Volume) :
    (∀ files, Separate mark files volume.files →
      Atomic faults mark files volume.files ((writeAll mark files : Faulty faults _).run volume)) ∧
    ∀ (unit : OutputUnit) (source : String),
      (Separate mark [⟨source, unit.asOneFile⟩] volume.files →
        Atomic faults mark [⟨source, unit.asOneFile⟩] volume.files
          ((unit.save mark source none : Faulty faults _).run volume)) ∧
      ∀ header,
        match Path.fileName? header with
        | none => (unit.save mark source (some header) : Faulty faults _).run volume =
            (.error ⟨header, .noHeaderName⟩, volume)
        | some name =>
            Separate mark [⟨header, unit.header⟩, ⟨source, unit.including name⟩] volume.files →
              Atomic faults mark [⟨header, unit.header⟩, ⟨source, unit.including name⟩] volume.files
                ((unit.save mark source (some header) : Faulty faults _).run volume) := by
  have atomic : ∀ files, Separate mark files volume.files →
      Atomic faults mark files volume.files
        ((writeAll mark files : Faulty faults _).run volume) := by
    intro files separate
    obtain ⟨result, after, ended, outcome⟩ := writeAll_outcome faults separate
    rw [ended]
    exact outcome.atomic separate
  refine ⟨atomic, fun unit source => ⟨atomic _, fun header => ?_⟩⟩
  cases named : Path.fileName? header with
  | none =>
      simp only [OutputUnit.save, named]
      rfl
  | some name =>
      intro separate
      simp only [OutputUnit.save, named]
      exact atomic _ separate

/-- The source cannot be moved into place. -/
def heldSource : Faults := fun act path =>
  if act = .rename ∧ path = "out/m.c.7.tmp" then some ⟨.busy, none⟩ else none

def olderFiles : Volume where
  files path := if path = "out/m.h" ∨ path = "out/m.c" then some "old" else none
  pending _ := none

/-- The header is new, the source is old, and no temporary is left. -/
theorem heldSource_keeps_new_header :
    let unit : OutputUnit := ⟨"void f(void);\n", "void f(void) \x7b\x7d\n"⟩
    let files : List File := [⟨"out/m.h", unit.header⟩, ⟨"out/m.c", unit.including "m.h"⟩]
    let (result, after) :=
      (unit.save "7" "out/m.c" (some "out/m.h") : Faulty heldSource _).run olderFiles
    Atomic heldSource "7" files olderFiles.files (result, after) ∧
      result = .error ⟨"out/m.c", .system .busy⟩ ∧
      after.files "out/m.h" = some unit.header ∧ after.files "out/m.c" = some "old" ∧
      after.files "out/m.h.7.tmp" = none ∧ after.files "out/m.c.7.tmp" = none := by
  intro unit files
  have separate : Separate "7" files olderFiles.files := ⟨by decide +kernel, by decide +kernel⟩
  have named : Path.fileName? "out/m.h" = some "m.h" := by decide +kernel
  have atomic := ((writing_is_atomic heldSource "7" olderFiles).2 unit "out/m.c").2 "out/m.h"
  rw [named] at atomic
  refine ⟨atomic separate, ?_⟩
  decide +kernel

end CBackend.Output
