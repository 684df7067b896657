import CBackend.Proofs.Description.Building
import CBackend.Proofs.TypeStore.Brackets

/-!
# Building is a run of operations

A description is built by operations on a store that starts empty, and the only
basic types among them are those of mnemonics.  So whatever holds of all runs
that insert defined codes holds of the types of every program that was built.
In particular their signatures can be read item by item.
-/

namespace CBackend

open InformationTheory (UniquelyDecodable)

namespace Description

/-- A computation that changes its store by such operations only. -/
def Operates (step : Resolve α) : Prop :=
  ∀ store value next, step store = .ok (value, next) → store.Reaches next

namespace Operates

theorem pure (value : α) : Operates (Pure.pure value : Resolve α) := by
  intro store _ next success
  cases success
  exact .refl store

theorem bind {step : Resolve α} {next : α → Resolve β} (first : Operates step)
    (later : ∀ value, Operates (next value)) : Operates (step >>= next) := by
  intro store _ last success
  obtain ⟨value, between, ran, success⟩ := Success.run_bind_iff.mp success
  exact (first store value between ran).trans (later value between _ last success)

/-- A part that only may fail. -/
theorem lift (part : Except DescriptionError α) : Operates (liftM part : Resolve α) := by
  intro store _ next success
  cases part with
  | error cause => cases success
  | ok value =>
      cases success
      exact .refl store

theorem mapM {action : α → Resolve β} (each : ∀ item, Operates (action item)) (items : List α) :
    Operates (items.mapM action) := by
  induction items with
  | nil => exact pure []
  | cons item items induction =>
      rw [List.mapM_cons]
      exact (each item).bind fun first => induction.bind fun others => pure (first :: others)

theorem forM {action : α → Resolve PUnit} (each : ∀ item, Operates (action item))
    (items : List α) : Operates (items.forM action) := by
  induction items with
  | nil => exact pure PUnit.unit
  | cons item items induction =>
      rw [List.forM]
      exact (each item).bind fun _ => induction

theorem discard {step : Resolve α} (operates : Operates step) :
    Operates (Functor.discard step) :=
  operates.bind fun _ => pure ()

theorem of_run {step : Resolve α} (operation : TypeStore.Operation)
    (defined : operation.InsertsDefined)
    (runs : ∀ store value next, step store = .ok (value, next) →
      operation.run store = .ok next) : Operates step := by
  intro store value next success
  exact .of_run defined (runs store value next success)

theorem insertType {shape : Shape} (noBasic : ∀ code, shape ≠ .basic code) :
    Operates (Description.insertType shape) := by
  apply of_run (.insert shape)
  · intro code inserted
    cases shape with
    | basic other => exact absurd rfl (noBasic other)
    | _ => cases inserted
  · intro store number next success
    rw [insertType_run, Success.mapError_iff] at success
    exact Success.bind_iff.mpr ⟨_, success, rfl⟩

theorem extendStruct (struct : TypeNumber) (field : Field) :
    Operates (Description.extendStruct struct field) := by
  apply of_run (.extend struct field) nofun
  intro store _ next success
  rw [extendStruct_run, Success.map_iff] at success
  obtain ⟨_, success, same⟩ := success
  cases same
  exact Success.mapError_iff.mp success

theorem findType (name : String) : Operates (Description.findType name) := by
  intro store number next success
  rw [findType_run] at success
  split at success
  · cases success
    exact .refl store
  · cases success

theorem resolveName (name : String) : Operates (Description.resolveName name) := by
  unfold Description.resolveName
  cases spelled : BasicCode.ofMnemonic? name with
  | none => exact findType name
  | some code =>
      obtain ⟨cName, isSpelled⟩ := BasicCode.ofMnemonic?_spelled spelled
      apply of_run (.intern code)
      · intro other inserted
        cases inserted
        exact BasicCode.defined_of_spelled isSpelled
      · intro store number next success
        have same : store.internBasic code = (number, next) := Except.ok.inj success
        rw [TypeStore.Operation.run, same]
        rfl

end Operates

mutual

theorem TypeTerm.resolve_operates (term : TypeTerm) : Operates term.resolve := by
  cases term with
  | named name =>
      rw [TypeTerm.resolve]
      exact .resolveName name
  | pointer mode pointee =>
      rw [TypeTerm.resolve]
      exact (TypeTerm.resolve_operates pointee).bind fun _ => .insertType nofun
  | array element capacity =>
      rw [TypeTerm.resolve]
      exact (TypeTerm.resolve_operates element).bind fun _ => .insertType nofun
  | function signature =>
      rw [TypeTerm.resolve]
      exact (SignatureTerm.resolve_operates signature).bind fun _ => .insertType nofun

theorem FieldTerm.resolve_operates (term : FieldTerm) : Operates term.resolve := by
  obtain ⟨name, type⟩ := term
  rw [FieldTerm.resolve]
  exact (TypeTerm.resolve_operates type).bind fun _ => .pure _

theorem SignatureTerm.resolve_operates (term : SignatureTerm) : Operates term.resolve := by
  obtain ⟨params, results⟩ := term
  rw [SignatureTerm.resolve]
  exact (resolveFields_operates params).bind fun _ =>
    (resolveFields_operates results).bind fun _ => .pure _

theorem resolveFields_operates (terms : List FieldTerm) : Operates (resolveFields terms) := by
  cases terms with
  | nil =>
      rw [resolveFields]
      exact .pure []
  | cons term terms =>
      rw [resolveFields]
      exact (FieldTerm.resolve_operates term).bind fun _ =>
        (resolveFields_operates terms).bind fun _ => .pure _

end

theorem PrototypeTerm.resolve_operates (term : PrototypeTerm) : Operates term.resolve :=
  term.signature.resolve_operates.bind fun _ => .pure _

theorem TypeEntry.announce_operates (entry : TypeEntry) : Operates entry.announce := by
  cases entry with
  | struct name fields =>
      apply Operates.of_run (.announce name) nofun
      intro store _ next success
      rw [announce_run, Success.map_iff] at success
      obtain ⟨result, success, same⟩ := success
      cases same
      exact Success.bind_iff.mpr ⟨result, Success.mapError_iff.mp success, rfl⟩
  | trait name prototypes => exact .pure ()
  | aliasOf name target => exact .pure ()

theorem TypeEntry.fill_operates (entry : TypeEntry) : Operates entry.fill := by
  cases entry with
  | struct name fields =>
      refine (Operates.findType name).bind fun number => ?_
      exact .forM (fun field => field.resolve_operates.bind (.extendStruct number)) fields
  | trait name prototypes =>
      refine (Operates.mapM PrototypeTerm.resolve_operates prototypes).bind fun _ => ?_
      exact .discard (.insertType nofun)
  | aliasOf name target =>
      refine target.resolve_operates.bind fun _ => ?_
      exact .discard (.insertType nofun)

theorem BodyTerm.resolve_operates (names : List String) (term : BodyTerm) :
    Operates (term.resolve names) := by
  refine (Operates.mapM TypeTerm.resolve_operates term.registers).bind fun _ => ?_
  exact (Operates.lift (resolveBlocks names term.blocks)).bind fun _ => .pure _

theorem CalleeEntry.resolve_operates (names : List String) (entry : CalleeEntry) :
    Operates (entry.resolve names) := by
  cases entry with
  | native name symbol signature => exact signature.resolve_operates.bind fun _ => .pure _
  | inlined name signature body =>
      exact signature.resolve_operates.bind fun _ =>
        (body.resolve_operates names).bind fun _ => .pure _
  | compiled name signature body =>
      exact signature.resolve_operates.bind fun _ =>
        (body.resolve_operates names).bind fun _ => .pure _

theorem buildTypes_reached {pointerSize : PointerSize} {entries : List TypeEntry}
    {store : TypeStore} (success : buildTypes pointerSize entries = .ok store) :
    (TypeStore.empty pointerSize).Reaches store := by
  obtain ⟨⟨_, built⟩, ran, same⟩ := Success.bind_iff.mp success
  cases same
  have operates : Operates
      (do entries.forM TypeEntry.announce; entries.forM TypeEntry.fill : Resolve Unit) :=
    (Operates.forM TypeEntry.announce_operates entries).bind fun _ =>
      Operates.forM TypeEntry.fill_operates entries
  exact operates _ _ _ ran

theorem insertEntry_reached {names : List String} {program next : Program}
    {entry : CalleeEntry} (success : insertEntry names program entry = .ok next) :
    program.types.Reaches next.types := by
  obtain ⟨⟨callee, types⟩, resolved, success⟩ := Success.bind_iff.mp success
  have reached := entry.resolve_operates names _ _ _ resolved
  dsimp only at success
  cases inserted : Program.insertCallee ⟨program.name, types, program.callees⟩ callee with
  | error cause =>
      rw [inserted] at success
      cases success
  | ok result =>
      rw [inserted] at success
      cases success
      rw [(Program.insertCallee_success inserted).1]
      exact reached

theorem insertEntries_reached {names : List String} {program next : Program}
    {entries : List CalleeEntry}
    (success : entries.foldlM (insertEntry names) program = .ok next) :
    program.types.Reaches next.types := by
  induction entries generalizing program with
  | nil =>
      cases success
      exact .refl _
  | cons entry entries induction =>
      rw [List.foldlM_cons] at success
      obtain ⟨between, inserted, success⟩ := Success.bind_iff.mp success
      exact (insertEntry_reached inserted).trans (induction success)

theorem build_reached {description : Description} {program : Program}
    (success : description.build = .ok program) :
    (TypeStore.empty description.pointerSize).Reaches program.types := by
  obtain ⟨store, typesBuilt, success⟩ := Success.bind_iff.mp success
  dsimp only at success
  split at success
  · cases success
  · exact (buildTypes_reached typesBuilt).trans (insertEntries_reached success)

/-- In every store that was reached by inserting defined codes, as each program
that was built has one, all types have signatures, also those stored with the
structs, and these are well bracketed and consist of items.  The signature of a
type that stands for no struct and no trait is one item.  Items that are
written one after the other can be told apart in one way only. -/
theorem signatures_well_bracketed (size : PointerSize) :
    (∀ store : TypeStore, (TypeStore.empty size).Reaches store →
      (∀ number < store.size, ∃ signature, store.signature number = .ok signature ∧
        signature.WellBracketed size ∧
        (∃ parts : List Signature, (∀ part ∈ parts, part.IsItem size) ∧
          parts.flatten = signature) ∧
        ∃ target shape, store.unalias number = .ok target ∧ store.shapeAt target = .ok shape ∧
          (shape.isStruct = false → shape.isTrait = false → signature.IsItem size)) ∧
      ∀ number name fields stored, store.shapeAt number = .ok (.struct name fields stored) →
        store.signature number = .ok stored ∧ stored.WellBracketed size) ∧
    (∀ (description : Description) (program : Program), description.build = .ok program →
      (TypeStore.empty description.pointerSize).Reaches program.types) ∧
    UniquelyDecodable {signature : Signature | signature.IsItem size} := by
  refine ⟨?_, fun _ _ => build_reached, Signature.items_uniquelyDecodable size⟩
  intro store reached
  have formed : ∀ {number signature}, store.signature number = .ok signature →
      signature.Formed size := reached.formed.signature Signature.Formed.compositional
  constructor
  · intro number inside
    obtain ⟨signature, laidOut⟩ := reached.ordered.signature_total inside
    have answers := reached.ordered.unalias_answers number
    rw [TypeStore.Answers, if_pos inside] at answers
    obtain ⟨target, resolves⟩ := answers
    obtain ⟨shape, isShape, _⟩ := TypeStore.unalias_not_alias resolves
    have isFormed := formed laidOut
    refine ⟨signature, laidOut, isFormed.wellBracketed,
      isFormed.balanced.exists_items isFormed.allowed, target, shape, resolves, isShape, ?_⟩
    intro noStruct noTrait
    exact reached.formed.isItem resolves isShape noStruct noTrait laidOut
  · intro number name fields stored isStruct
    have laidOut := TypeStore.signature_struct isStruct
    exact ⟨laidOut, (formed laidOut).wellBracketed⟩

/-- A struct that points to itself, and another name for this pointer. -/
def nodeDescription : Description where
  name := "node"
  pointerSize := .four
  types := [
    .struct "Node" [⟨"next", .pointer .safe (.named "Node")⟩, ⟨"tag", .named "u8"⟩],
    .aliasOf "Link" (.pointer (.nullable false) (.named "Node"))]
  callees := []

/-- The field that points to the struct was laid out before the struct had
fields. -/
def nodeProgram : Program where
  name := "node"
  types := ⟨.four, [
    .struct "Node" [⟨"next", 1⟩, ⟨"tag", 2⟩] [⟨0o43⟩, ⟨0⟩, ⟨0o11⟩],
    .pointer .safe 0, .basic ⟨0o11⟩, .pointer (.nullable false) 0, .aliasOf "Link" 3]⟩
  callees := []

theorem nodeProgram_well_bracketed :
    nodeDescription.build = .ok nodeProgram ∧
      nodeProgram.types.signature 4 = .ok [⟨0o43⟩, ⟨0o43⟩, ⟨0⟩, ⟨0o11⟩, ⟨0⟩] ∧
      Signature.IsItem .four [⟨0o43⟩, ⟨0o43⟩, ⟨0⟩, ⟨0o11⟩, ⟨0⟩] ∧
      Signature.WellBracketed .four [⟨0o43⟩, ⟨0⟩, ⟨0o11⟩] ∧
      ∀ parts : List Signature, (∀ part ∈ parts, part.IsItem .four) →
        parts.flatten = [⟨0o43⟩, ⟨0⟩, ⟨0o11⟩] → parts = [[⟨0o43⟩, ⟨0⟩], [⟨0o11⟩]] := by
  have built : nodeDescription.build = .ok nodeProgram := by decide +kernel
  have laidOut : nodeProgram.types.signature 4 =
      .ok [⟨0o43⟩, ⟨0o43⟩, ⟨0⟩, ⟨0o11⟩, ⟨0⟩] := by decide +kernel
  have resolves : nodeProgram.types.unalias 4 = .ok 3 := by decide +kernel
  obtain ⟨bracketed, loads, decodable⟩ := signatures_well_bracketed .four
  obtain ⟨signatures, stored⟩ := bracketed _ (loads nodeDescription nodeProgram built)
  obtain ⟨signature, isSignature, _, _, target, shape, isTarget, isShape, isItem⟩ :=
    signatures 4 (by decide)
  rw [laidOut] at isSignature
  cases isSignature
  rw [resolves] at isTarget
  cases isTarget
  cases isShape
  refine ⟨built, laidOut, isItem rfl rfl, (stored 0 "Node" _ _ rfl).2, ?_⟩
  intro parts areItems same
  refine decodable parts _ areItems ?_ same
  have address : Signature.IsItem .four [⟨0o43⟩, ⟨0⟩] :=
    .pointer Signature.Formed.compositional.nil.wellBracketed
  exact List.forall_mem_cons.mpr ⟨address, List.forall_mem_singleton.mpr (.code (by decide))⟩

end Description

end CBackend
