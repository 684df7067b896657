import CBackend.Program.Listing
import CBackend.Proofs.Description.Snapshots
import CBackend.Proofs.Lowering.Causes

/-!
# Why a description fails

Building a program fails only for what its description says.  Nothing is
missing to a program that was built: every basic type has a name in C, and
every instruction invokes a callee of the program.  So it can be listed, and
its output fails only for what the program says.
-/

namespace CBackend

open Relation (ReflTransGen)

namespace Program

variable {program : Program}

theorem Founded.typeLine_total (founded : program.Founded) (shape : Shape) {number : TypeNumber}
    (inside : number < program.types.size) :
    ∃ line, typeLine program.types shape number = .ok line := by
  have named := founded.ordered.identifier_answers number
  have laidOut := founded.ordered.signature_answers number
  rw [TypeStore.Answers, if_pos inside] at named laidOut
  obtain ⟨name, isName⟩ := named
  obtain ⟨signature, isSignature⟩ := laidOut
  exact ⟨_, Success.bind_iff.mpr ⟨name, isName, Success.bind_iff.mpr ⟨signature, isSignature, rfl⟩⟩⟩

theorem Founded.bodyLines_total (founded : program.Founded) {callee : Callee}
    (member : callee ∈ program.callees) {body : Body} (isBody : callee.body? = some body) :
    ∃ lines, bodyLines program.types body = .ok lines := by
  obtain ⟨registers, listed⟩ : ∃ registers, (body.registers.zipIdx.mapM fun entry =>
      registerLine program.types entry.1 entry.2) = .ok registers := by
    apply Success.mapM_total
    intro entry isEntry
    have named := founded.ordered.identifier_answers entry.1
    rw [TypeStore.Answers, if_pos (founded.registersExist member isBody _
      (List.fst_mem_of_mem_zipIdx isEntry))]
      at named
    obtain ⟨name, isName⟩ := named
    exact ⟨_, Success.bind_iff.mpr ⟨name, isName, rfl⟩⟩
  exact ⟨_, Success.bind_iff.mpr ⟨registers, listed, rfl⟩⟩

theorem Founded.calleeLines_total (founded : program.Founded) {callee : Callee}
    (member : callee ∈ program.callees) (number : CalleeNumber) :
    ∃ lines, calleeLines program.types callee number = .ok lines := by
  unfold calleeLines
  cases isBody : callee.body? with
  | none => exact ⟨_, rfl⟩
  | some body =>
      obtain ⟨lines, listed⟩ := founded.bodyLines_total member isBody
      exact ⟨_, Success.bind_iff.mpr ⟨lines, listed, rfl⟩⟩

/-- Every program can be listed. -/
theorem Founded.listing_total (founded : program.Founded) : ∃ text, program.listing = .ok text := by
  obtain ⟨types, typesListed⟩ : ∃ types, (program.types.shapes.zipIdx.mapM fun entry =>
      typeLine program.types entry.1 entry.2) = .ok types := by
    apply Success.mapM_total
    intro entry isEntry
    exact founded.typeLine_total entry.1 (List.snd_lt_of_mem_zipIdx isEntry)
  obtain ⟨callees, calleesListed⟩ : ∃ callees, (program.callees.zipIdx.mapM fun entry =>
      calleeLines program.types entry.1 entry.2) = .ok callees := by
    apply Success.mapM_total
    intro entry isEntry
    exact founded.calleeLines_total (List.fst_mem_of_mem_zipIdx isEntry) entry.2
  exact ⟨_, Success.bind_iff.mpr ⟨types, typesListed,
    Success.bind_iff.mpr ⟨callees, calleesListed, rfl⟩⟩⟩

end Program

namespace TypeStore

/-- All basic types were named by a mnemonic. -/
def Mnemonic (store : TypeStore) : Prop :=
  ∀ number code, store.shapeAt number = .ok (.basic code) →
    ∃ name, BasicCode.ofMnemonic? name = some code

variable {store next : TypeStore}

theorem Mnemonic.pad (mnemonic : store.Mnemonic) (pads : store.Pads next) : next.Mnemonic := by
  obtain ⟨added, rfl, anonymous⟩ := pads
  intro number code isBasic
  rcases origin_of_append rfl isBasic with old | new
  · exact mnemonic number code old
  · exact anonymous _ new

end TypeStore

theorem BasicCode.cName?_of_mnemonic {name : String} {code : BasicCode}
    (found : ofMnemonic? name = some code) : code.cName?.isSome := by
  have each : ∀ entry ∈ spellings, entry.1.cName?.isSome := by decide
  obtain ⟨cName, member⟩ := ofMnemonic?_spelled found
  exact each _ member

namespace Description

theorem Advance.mnemonic {before after : Nat × TypeStore} (advance : Advance before after)
    (mnemonic : before.2.Mnemonic) : after.2.Mnemonic := by
  cases advance with
  | pad pads ordered => exact mnemonic.pad pads
  | declare noStruct named ordered =>
      intro number code isBasic
      rcases TypeStore.shapeAt_append.mp isBasic with old | ⟨_, same⟩
      · exact mnemonic number code old
      · rw [← same] at named
        cases named
  | extend success =>
      obtain ⟨_, _, _, _, _, _, _, _, _, rfl⟩ := TypeStore.extend_success_iff.mp success
      intro number code isBasic
      rcases TypeStore.shapeAt_replace isBasic with ⟨_, same⟩ | old
      · cases same
      · exact mnemonic number code old
  | finish => exact mnemonic

variable {description : Description} {program : Program}

theorem Built.mnemonic (built : Built description program) : program.types.Mnemonic := by
  obtain ⟨store, typesBuilt, pads⟩ := built.types
  have run : ∀ reached, ReflTransGen Advance
      (0, announcedStore description.pointerSize
        ((structsOf description.types).map TypeEntry.name)) reached →
      reached.2.Mnemonic := by
    intro reached steps
    induction steps with
    | refl =>
        intro number code isBasic
        obtain ⟨name, same⟩ := announcedStore_shapeAt isBasic
        cases same
    | tail _ advance induction => exact advance.mnemonic induction
  exact (run _ typesBuilt.steps).pad pads

theorem InstructionTerm.resolve_invokes {names : List String} {term : InstructionTerm}
    {callee : CalleeNumber} {args results : List RegisterNumber}
    (resolves : term.resolve names = .ok (.invoke callee args results)) :
    callee < names.length := by
  cases term with
  | invoke name given stored =>
      simp only [InstructionTerm.resolve] at resolves
      cases found : names.idxOf? name with
      | none =>
          rw [found] at resolves
          cases resolves
      | some number =>
          rw [found] at resolves
          cases resolves
          obtain ⟨inside, _⟩ := List.idxOf?_eq_some_iff.mp found
          exact inside
  | _ => cases resolves

theorem BodyTerm.Means.invokesBelow {store : TypeStore} {names : List String}
    {term : BodyTerm} {body : Body}
    (means : term.Means store names body) : body.InvokesBelow names.length := by
  intro block isBlock callee args results member
  obtain ⟨terms, _, resolved⟩ :=
    Success.related_of_mem (Success.mapM_iff.mp means.2).flip block isBlock
  obtain ⟨instruction, _, resolves⟩ :=
    Success.related_of_mem (Success.mapM_iff.mp resolved).flip _ member
  exact InstructionTerm.resolve_invokes resolves

theorem Built.selfContained (built : Built description program) : program.SelfContained := by
  refine ⟨built.founded, ?_, ?_⟩
  · intro number code isBasic
    obtain ⟨name, found⟩ := built.mnemonic number code isBasic
    exact BasicCode.cName?_of_mnemonic found
  · have count : description.calleeNames.length = program.callees.length := by
      rw [calleeNames, List.length_map, built.callees.length_eq]
    intro callee member body isBody
    rw [← count]
    obtain ⟨entry, _, means⟩ := Success.related_of_mem built.callees.flip callee member
    cases entry with
    | native name symbol signature =>
        obtain ⟨type, rfl, _⟩ := means
        cases isBody
    | inlined name signature term =>
        obtain ⟨type, _, rfl, _, bodyMeans⟩ := means
        cases isBody
        exact bodyMeans.invokesBelow
    | compiled name signature term =>
        obtain ⟨type, _, rfl, _, bodyMeans⟩ := means
        cases isBody
        exact bodyMeans.invokesBelow

/-- A description that cannot be built says something wrong.  A program that
was built can be listed, and if it has no output, then the program says
something wrong. -/
theorem failures_are_told (description : Description) :
    match description.build with
    | .error cause => cause.InDescription
    | .ok program => (∃ text, program.listing = .ok text) ∧
        ∀ cause, program.output = .error cause → cause.InProgram := by
  rcases build_ends description with ⟨program, success, _, built⟩ | ⟨cause, failure, told, _⟩
  · rw [success]
    exact ⟨built.founded.listing_total, built.selfContained.output_fails⟩
  · rw [failure]
    exact told

end Description

end CBackend
