import CBackend.Proofs.Lowering.Acceptance
import CBackend.Proofs.Lowering.DeclaredTypes
import CBackend.Proofs.Lowering.HeaderOrder

/-!
# Declarations of one symbol

The header declares the compiled functions under their names, and the source
the natives under their link symbols.  No two compiled functions have one
name, and no two prototypes of the source have one symbol, whatever inline
functions the natives were called through.

A link symbol may still be the name of a compiled function.  The two
prototypes stand in one unit then, and they are never compared: they agree
up to the names of parameters exactly if both functions have one type in C.
-/

namespace CBackend

open C (Ty Declaration)

/-- The name that a declaration introduces. -/
def C.Declaration.symbol (declaration : Declaration) : String :=
  declaration.declarator.declared

/-- Any two declarations of one symbol are the same up to the names of
parameters. -/
def C.Coherent (declarations : List Declaration) : Prop :=
  ∀ first ∈ declarations, ∀ second ∈ declarations,
    first.symbol = second.symbol → first.unnamed = second.unnamed

/-- Lists that declare each symbol once are coherent together if they agree
on the symbols they share. -/
theorem C.coherent_append_iff {left right : List Declaration}
    (leftDistinct : (left.map Declaration.symbol).Nodup)
    (rightDistinct : (right.map Declaration.symbol).Nodup) :
    C.Coherent (left ++ right) ↔
      ∀ first ∈ left, ∀ second ∈ right,
        first.symbol = second.symbol → first.unnamed = second.unnamed := by
  constructor
  · intro coherent first inLeft second inRight
    exact coherent first (List.mem_append_left _ inLeft) second
      (List.mem_append_right _ inRight)
  · intro agree first isFirst second isSecond same
    rcases List.mem_append.mp isFirst with firstLeft | firstRight <;>
      rcases List.mem_append.mp isSecond with secondLeft | secondRight
    · rw [List.inj_on_of_nodup_map leftDistinct firstLeft secondLeft same]
    · exact agree first firstLeft second secondRight same
    · exact (agree second secondLeft first firstRight same.symm).symm
    · rw [List.inj_on_of_nodup_map rightDistinct firstRight secondRight same]

namespace TypeStore

variable {store : TypeStore}

theorem declareFunction_symbol {type : FunctionType} {name : String}
    {declaration : Declaration}
    (success : store.declareFunction type (.name name) = .ok declaration) :
    declaration.symbol = name := by
  obtain ⟨_, _, wraps⟩ := declareFunctionBy_wraps declare_wraps success
  exact wraps.declared_eq

/-- Functions are declared under their names, in order. -/
theorem symbols_eq {typeOf : α → FunctionType} {nameOf : α → String} {items : List α}
    {declarations : List Declaration}
    (success : items.mapM (fun item =>
      store.declareFunction (typeOf item) (.name (nameOf item))) = .ok declarations) :
    declarations.map Declaration.symbol = items.map nameOf := by
  have related := Success.mapM_iff.mp success
  clear success
  induction related with
  | nil => rfl
  | cons first _ induction =>
      rw [List.map_cons, List.map_cons, induction, declareFunction_symbol first]

/-- Two function types are the same in C but for the names of parameters. -/
def AlikeInC (store : TypeStore) (first second : FunctionType) : Prop :=
  (first.typeBy store.typeInC?).map Ty.unnamed = (second.typeBy store.typeInC?).map Ty.unnamed

theorem unnamed_eq_iff {first second : FunctionType} {name : String}
    {firstDeclared secondDeclared : Declaration}
    (firstSuccess : store.declareFunction first (.name name) = .ok firstDeclared)
    (secondSuccess : store.declareFunction second (.name name) = .ok secondDeclared) :
    firstDeclared.unnamed = secondDeclared.unnamed ↔ store.AlikeInC first second := by
  obtain ⟨firstType, firstFound, rfl⟩ := declareFunction_written firstSuccess
  obtain ⟨secondType, secondFound, rfl⟩ := declareFunction_written secondSuccess
  rw [AlikeInC, firstFound, secondFound, C.unnamed_declaration_eq_iff, Option.map_some,
    Option.map_some, Option.some.injEq]

theorem unnamedParams_entitiesBy (typeOf : TypeNumber → Option Ty) (fields : List Field) :
    (entitiesBy typeOf fields).map Ty.unnamedParams =
      (fields.map Field.type).mapM fun number =>
        (typeOf number).map fun type => ⟨"", type.unnamed⟩ := by
  induction fields with
  | nil => rfl
  | cons field fields induction =>
      rw [List.map_cons, List.mapM_cons, ← induction, entitiesBy, entitiesBy, List.mapM_cons]
      cases typeOf field.type with
      | none => rfl
      | some type =>
          cases fields.mapM fun field =>
              (typeOf field.type).map fun type => (⟨field.name, type⟩ : C.Entity) with
          | none => rfl
          | some later => rfl

/-- New names for parameters change no type in C. -/
theorem alikeInC_of_types {first second : FunctionType}
    (params : first.params.map Field.type = second.params.map Field.type)
    (results : first.results = second.results) : store.AlikeInC first second := by
  have sameParams : (entitiesBy store.typeInC? first.params).map Ty.unnamedParams =
      (entitiesBy store.typeInC? second.params).map Ty.unnamedParams := by
    rw [unnamedParams_entitiesBy, unnamedParams_entitiesBy, params]
  have unnamed : ∀ type : FunctionType,
      (type.typeBy store.typeInC?).map Ty.unnamed =
        ((entitiesBy store.typeInC? type.params).map Ty.unnamedParams).bind fun params =>
          (resultBy store.typeInC? type.results).map fun result =>
            .function params result.unnamed := by
    intro type
    rw [FunctionType.typeBy]
    cases entitiesBy store.typeInC? type.params with
    | none => rfl
    | some params =>
        cases resultBy store.typeInC? type.results with
        | none => rfl
        | some result => rfl
  rw [AlikeInC, unnamed, unnamed, sameParams, results]

end TypeStore

namespace Program

variable {program : Program}

theorem CalleesDistinct.compiled (distinct : program.CalleesDistinct) :
    (program.compiled.map BodiedFunction.name).Nodup := by
  refine List.pairwise_map.mpr (List.Pairwise.filterMap _ ?_ (List.pairwise_map.mp distinct))
  intro first second differ function isFunction other isOther
  cases first with
  | native _ => cases isFunction
  | inlined _ => cases isFunction
  | compiled _ =>
      cases second with
      | native _ => cases isOther
      | inlined _ => cases isOther
      | compiled _ =>
          cases isFunction
          cases isOther
          exact differ

/-- The head of every definition is its prototype in the header. -/
theorem source_heads {source : C.Source} {prototypes : List Declaration}
    (success : program.source = .ok source)
    (declared : program.compiled.mapM program.declareCompiled = .ok prototypes) :
    source.definitions.map C.Definition.head = prototypes := by
  have heads : program.compiled.mapM program.declareCompiled =
      .ok (source.definitions.map C.Definition.head) := by
    refine Success.mapM_iff.mpr (List.forall₂_map_right_iff.mpr ?_)
    refine (source_defines success).imp ?_
    rintro function definition ⟨_, _, defines⟩
    cases defines with
    | mk _ _ _ _ headed _ _ => exact headed
  exact Except.ok.inj (heads.symm.trans declared)

/-- The natives behind the prototypes of a source are called from somewhere,
and every native that is called is one of them or has the prototype of one. -/
theorem Founded.source_natives (founded : program.Founded) {source : C.Source}
    (success : program.source = .ok source) :
    ∃ natives : List NativeFunction,
      natives.mapM (fun native =>
        program.types.declareFunction native.type (.name native.symbol)) =
          .ok source.linked ∧
      SymbolsDistinct natives ∧ (∀ native ∈ natives, program.CallsNative native) ∧
      ∀ native, program.CallsNative native → Keeps program.types natives native := by
  obtain ⟨definitions, natives, defined, declared, distinct, checked⟩ :=
    founded.source_checked success
  have noneYet : ∀ native ∈ ([] : List NativeFunction), program.CallsNative native := nofun
  obtain ⟨_, _, again, called⟩ := Lowering.definitions_total founded
    (founded.lowerable_of_source success) (List.Subset.refl program.compiled) noneYet
  rw [defined] at again
  cases again
  exact ⟨natives, declared, distinct, called, fun _ calls => keeps_of_checked checked calls⟩

/-- A native that is called and whose own prototype stands in the source.
Other natives of its symbol are only known to have the same text. -/
def Links (program : Program) (source : C.Source) (native : NativeFunction) : Prop :=
  program.CallsNative native ∧ ∃ prototype ∈ source.linked,
    program.types.declareFunction native.type (.name native.symbol) = .ok prototype

/-- The prototypes of a compiled function and of a native of its name. -/
theorem unnamed_head_eq_iff {function : BodiedFunction} {native : NativeFunction}
    {head prototype : Declaration} (headed : program.declareCompiled function = .ok head)
    (declared : program.types.declareFunction native.type (.name native.symbol) =
      .ok prototype)
    (sameName : native.symbol = function.name) :
    head.unnamed = prototype.unnamed ↔
      program.types.AlikeInC function.type native.type := by
  have renamed :
      program.types.AlikeInC (program.definitionType function.type) function.type :=
    TypeStore.alikeInC_of_types (Parameters.forDefinition_types _ _) rfl
  rw [sameName] at declared
  rw [TypeStore.unnamed_eq_iff headed declared]
  exact ⟨renamed.symm.trans, renamed.trans⟩

/-- Header and source agree on the symbols they share exactly if the
functions behind them have one type. -/
theorem shared_symbols_agree_iff {source : C.Source} {prototypes : List Declaration}
    (prototyped : program.compiled.mapM program.declareCompiled = .ok prototypes)
    (behind : ∀ prototype ∈ source.linked, ∃ native, program.CallsNative native ∧
      program.types.declareFunction native.type (.name native.symbol) = .ok prototype) :
    (∀ head ∈ prototypes, ∀ prototype ∈ source.linked,
        head.symbol = prototype.symbol → head.unnamed = prototype.unnamed) ↔
      ∀ function ∈ program.compiled, ∀ native, program.Links source native →
        native.symbol = function.name →
          program.types.AlikeInC function.type native.type := by
  constructor
  · rintro agree function member native ⟨_, prototype, isLinked, declared⟩ sameName
    obtain ⟨head, isHead, headed⟩ :=
      Success.related_of_mem (Success.mapM_iff.mp prototyped) function member
    apply (unnamed_head_eq_iff headed declared sameName).mp
    apply agree head isHead prototype isLinked
    rw [TypeStore.declareFunction_symbol headed, TypeStore.declareFunction_symbol declared,
      sameName]
  · intro alike head isHead prototype isLinked sameSymbol
    obtain ⟨function, member, headed⟩ :=
      Success.related_of_mem (Success.mapM_iff.mp prototyped).flip head isHead
    obtain ⟨native, called, declared⟩ := behind prototype isLinked
    have sameName : native.symbol = function.name := by
      rw [← TypeStore.declareFunction_symbol declared, ← sameSymbol,
        TypeStore.declareFunction_symbol headed]
    apply (unnamed_head_eq_iff headed declared sameName).mpr
    exact alike function member native ⟨called, prototype, isLinked, declared⟩ sameName

/-- In a generated unit, neither the header nor the source declares a symbol
twice, the definitions have the prototypes of the header as heads, and every
native that is called stands in the source with its prototype.  The unit is
coherent exactly if no native that is linked under the name of a compiled
function has another type in C than the function. -/
theorem unit_coherent_iff (name : String) (pointerSize : PointerSize)
    (operations : List Operation) {header : C.Header} {source : C.Source}
    (headed : (history name pointerSize operations).header = .ok header)
    (sourced : (history name pointerSize operations).source = .ok source) :
    let program := history name pointerSize operations
    (header.prototypes.map Declaration.symbol).Nodup ∧
    (source.linked.map Declaration.symbol).Nodup ∧
    source.definitions.map C.Definition.head = header.prototypes ∧
    (∀ native, program.CallsNative native → ∃ prototype ∈ source.linked,
      prototype.symbol = native.symbol ∧
        prototypeText program.types native = .ok prototype.text) ∧
    (C.Coherent (header.prototypes ++ source.linked) ↔
      ∀ function ∈ program.compiled, ∀ native, program.Links source native →
        native.symbol = function.name →
          program.types.AlikeInC function.type native.type) := by
  intro program
  have founded : program.Founded := history_founded name pointerSize operations
  have distinct : program.CalleesDistinct :=
    history_calleesDistinct name pointerSize operations
  obtain ⟨_, _, prototyped⟩ := founded.header_sound headed
  obtain ⟨natives, linked, symbolsDistinct, called, kept⟩ := founded.source_natives sourced
  have headerDistinct : (header.prototypes.map Declaration.symbol).Nodup := by
    rw [TypeStore.symbols_eq prototyped]
    exact distinct.compiled
  have linkedDistinct : (source.linked.map Declaration.symbol).Nodup := by
    rw [TypeStore.symbols_eq linked]
    exact symbolsDistinct
  refine ⟨headerDistinct, linkedDistinct, source_heads sourced prototyped, ?_, ?_⟩
  · intro native calls
    obtain ⟨keptNative, isKept, sameSymbol, sameText⟩ := kept native calls
    obtain ⟨prototype, member, declared⟩ :=
      Success.related_of_mem (Success.mapM_iff.mp linked) keptNative isKept
    refine ⟨prototype, member, (TypeStore.declareFunction_symbol declared).trans sameSymbol, ?_⟩
    rw [← sameText]
    exact Lowering.prototypeText_ok_iff.mpr ⟨prototype, declared, rfl⟩
  · rw [C.coherent_append_iff headerDistinct linkedDistinct]
    apply shared_symbols_agree_iff prototyped
    intro prototype isLinked
    obtain ⟨native, isNative, declared⟩ :=
      Success.related_of_mem (Success.mapM_iff.mp linked).flip prototype isLinked
    exact ⟨native, called native isNative, declared⟩

/-- A function that calls a native of its own name. -/
def probing : BodiedFunction := ⟨"f", ⟨[], []⟩, ⟨[0], [[.invoke 0 [0] [], .leave]]⟩⟩

def probe : NativeFunction := ⟨"probe", ⟨[⟨"x", 0⟩], []⟩, "f"⟩

def clashOperations : List Operation :=
  [.types (.intern ⟨0o11⟩), .callee (.native probe), .callee (.compiled probing)]

/-- The unit declares the function without parameters in the header and with
one in the source. -/
theorem clash_incoherent : ∃ header source,
    (history "clash" .eight clashOperations).header = .ok header ∧
    (history "clash" .eight clashOperations).source = .ok source ∧
    header.prototypes.map Declaration.text = ["void f(void)"] ∧
    source.linked.map Declaration.text = ["void f(uint8_t x)"] ∧
    ¬ C.Coherent (header.prototypes ++ source.linked) := by
  refine ⟨⟨[], [], [⟨.void, .function (.name "f") []⟩]⟩,
    ⟨[⟨.void, .function (.name "f") [⟨.named "uint8_t", .name "x"⟩]⟩], _⟩,
    by with_unfolding_all rfl, by with_unfolding_all rfl, by with_unfolding_all rfl,
    by with_unfolding_all rfl, ?_⟩
  intro coherent
  have isProbing : probing ∈ (history "clash" .eight clashOperations).compiled :=
    List.mem_cons_self
  have calls : (history "clash" .eight clashOperations).CallsNative probe :=
    ⟨⟨[], probing⟩, 0, [0], [], ⟨probing, isProbing, .refl⟩, List.mem_cons_self, rfl⟩
  have alike := (unit_coherent_iff "clash" .eight clashOperations (by with_unfolding_all rfl)
    (by with_unfolding_all rfl)).2.2.2.2.mp coherent probing isProbing probe
    ⟨calls, _, List.mem_cons_self, by with_unfolding_all rfl⟩ rfl
  have differ : (history "clash" .eight clashOperations).types.AlikeInC probing.type
      probe.type ↔ some (Ty.function [] .void) =
        some (.function [⟨"", .basic "uint8_t"⟩] .void) := by
    with_unfolding_all exact Iff.rfl
  cases differ.mp alike

end Program

end CBackend
