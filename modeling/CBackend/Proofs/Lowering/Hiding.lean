import CBackend.Proofs.Lowering.Closedness

/-!
# Hidden names

A name that a definition declares hides whatever is spelled alike outside of
it.  Functions are called by their symbols and basic types are mentioned by
their names, so both can be hidden.  Parameters stay away from symbols, and
registers and temporaries from the names of types, but not the other way
round: a symbol can be spelled like a register or a temporary, and a
parameter that is named like an integer type keeps its name.  These two are
the only ways in which a definition hides anything.
-/

namespace CBackend

namespace C.Naming

theorem resolve_eq_none_iff {owner : Owner} {names : List String} {around : Naming}
    {name : String} :
    resolve ((owner, names) :: around) name = none ↔
      name ∉ names ∧ resolve around name = none := by
  by_cases member : name ∈ names
  · simp [resolve, member]
  · simp [resolve, member]

end C.Naming

namespace Lowering

open C (Definition Item Owner Naming)

/-- Nothing that is declared in a definition and in sight of a call is spelled
like the symbol called, and nothing in sight of a declaration is spelled like
a type that it mentions. -/
structure HidesNothing (program : Program) (function : BodiedFunction)
    (definition : Definition) : Prop where
  symbols : ∀ around owner inner front target symbol args back,
    Region program function definition around owner inner
      (front ++ .statement (.call target symbol args) :: back) →
    Naming.resolve ((owner, definition.namesAfter front owner) :: around) symbol = none
  types : ∀ around owner inner front declaration back,
    Region program function definition around owner inner
      (front ++ .declare declaration :: back) →
    ∀ name ∈ declaration.typeNames,
      Naming.resolve ((owner, definition.namesAfter front owner) :: around) name = none
  params : ∀ front param back,
    definition.head.declarator.parameters = front ++ param :: back →
    ∀ name ∈ param.typeNames, name ∉ front.map (·.declarator.declared)
  /-- The result may mention types after the parameters. -/
  results : ∀ later ∈ definition.head.declarator.later,
    ∀ name ∈ later.typeNames, name ∉ definition.paramNames

/-- No symbol is spelled like a register or temporary in sight of its call,
and no parameter that keeps the name of an integer type stands before a
declaration that mentions this type. -/
structure SpelledApart (program : Program) (function : BodiedFunction)
    (definition : Definition) : Prop where
  symbols : ∀ around owner inner items,
    Region program function definition around owner inner items →
    ∀ instruction ∈ inner.body.instructions, ∀ symbol ∈ program.called? instruction,
    ∀ generated : C.Variable, generated.isGenerated →
      Naming.resolve ((owner, definition.namesAfter items owner) :: around)
          generated.text = some generated.home →
        generated.text ≠ symbol
  types : ∀ front param back, function.type.params = front ++ param :: back →
    param.name ∈ integerNames → param.name ∉ program.globals →
    param.name ∉ front.map Field.name →
      (∀ later ∈ definition.head.declarator.parameters.drop (front.length + 1),
        param.name ∉ later.typeNames) ∧
      (∀ later ∈ definition.head.declarator.later, param.name ∉ later.typeNames) ∧
      ∀ around owner inner items declaration,
        Region program function definition around owner inner items →
        .declare declaration ∈ items → param.name ∉ declaration.typeNames

section Sight

variable {program : Program} {root function : BodiedFunction}
  {definition : Definition} {stored : List String} {around : Naming} {owner : Owner}
  {items front back : List Item} {item : Item} {name : String} {role : Role}

/-- Parameters are in sight everywhere. -/
theorem Region.sees_param
    (region : Region program root definition around owner function items)
    (isParam : name ∈ definition.paramNames) (front : List Item) :
    Naming.resolve ((owner, definition.namesAfter front owner) :: around) name ≠
      none := by
  induction region generalizing front with
  | whole =>
      intro unseen
      apply (Naming.resolve_eq_none_iff.mp unseen).1
      exact List.mem_append_left _ isParam
  | expansion _ _ _ induction =>
      intro unseen
      exact induction _ (Naming.resolve_eq_none_iff.mp unseen).2

/-- What is in sight of an item is in sight at the end of its region. -/
theorem resolve_at_end (same : items = front ++ back)
    (seen : Naming.resolve ((owner, definition.namesAfter front owner) :: around)
      name ≠ none) :
    Naming.resolve ((owner, definition.namesAfter items owner) :: around) name ≠
      none := by
  intro unseen
  obtain ⟨absent, outside⟩ := Naming.resolve_eq_none_iff.mp unseen
  apply seen
  refine Naming.resolve_eq_none_iff.mpr ⟨?_, outside⟩
  intro member
  apply absent
  rw [same]
  cases owner with
  | function =>
      rcases List.mem_append.mp member with isParam | declared
      · exact List.mem_append_left _ isParam
      · apply List.mem_append_right
        rw [List.filterMap_append]
        exact List.mem_append_left _ declared
  | expansion _ =>
      rw [Definition.namesAfter, List.filterMap_append]
      exact List.mem_append_left _ member

/-- Whatever stands after the declarations sees all names of its region. -/
theorem Laid.namesAfter_front
    (laid : Laid program definition stored around role items)
    (same : items = front ++ item :: back) (plain : item.declared? = none) :
    definition.namesAfter front role.owner =
      definition.namesAfter items role.owner := by
  cases laid with
  | mk sight declares _ _ _ copied _ _ _ emitted trailing _ _ _ =>
      obtain ⟨seen, _⟩ := naming_in_front sight declares
        (region_silent copied emitted trailing) same plain
      rw [sight] at seen
      rw [region_namesAfter copied emitted trailing]
      exact congrArg Prod.snd (List.cons.inj seen).1

theorem Laid.origin
    (laid : Laid program definition stored around role items)
    (seen : Naming.resolve
      ((role.owner, definition.namesAfter items role.owner) :: around) name ≠ none) :
    name ∈ definition.paramNames ∨ ∃ generated : C.Variable,
      generated.isGenerated ∧ generated.text = name ∧
        Naming.resolve ((role.owner, definition.namesAfter items role.owner) :: around)
          generated.text = some generated.home := by
  obtain ⟨home, resolves⟩ := Option.ne_none_iff_exists'.mp seen
  cases laid with
  | mk sight _ _ sees _ copied _ _ _ emitted trailing _ _ _ =>
      rw [region_namesAfter copied emitted trailing, ← sight] at resolves ⊢
      rcases sees.origin name home resolves with isParam | ⟨generated, made, rfl, rfl⟩
      · exact .inl isParam
      · exact .inr ⟨generated, made, rfl, resolves⟩

theorem Laid.basics
    (laid : Laid program definition stored around role items) :
    DeclaresBasics items := by
  cases laid with
  | mk _ _ basics _ _ copied _ _ _ emitted trailing _ _ _ =>
      intro declaration member
      rcases List.mem_append.mp member with declared | other
      · exact basics declaration declared
      · cases region_silent copied emitted trailing _ other

end Sight

section Parameters

variable {program : Program} {function : BodiedFunction} {definition : Definition}
  {before after : List NativeFunction} {name : String}

theorem Defines.paramNames_eq
    (defines : Defines program function before definition after) :
    definition.paramNames =
      (program.definitionType function.type).params.map Field.name := by
  cases defines with
  | mk _ _ _ _ headed _ _ => exact TypeStore.declareFunction_parameters headed

theorem Defines.head_typeNames
    (defines : Defines program function before definition after) :
    definition.head.declarator.typeNames ⊆ BasicCode.cNames := by
  cases defines with
  | mk _ _ _ _ headed _ _ => exact TypeStore.declareFunction_typeNames headed

theorem isUsable_type_iff {reserved : List String} (isType : name ∈ BasicCode.cNames) :
    Parameters.isUsable reserved name = true ↔
      name ∈ integerNames ∧ name ∉ reserved := by
  have spelled : ∀ name ∈ BasicCode.cNames, (name ∈ integerNames ↔
      Parameters.isUsable [] name = true) := by decide +kernel
  rw [spelled name isType]
  simp [Parameters.isUsable]

theorem candidate_not_mem_cNames (index suffix : Nat) :
    Parameters.candidate index suffix ∉ BasicCode.cNames := by
  have noLetter : ∀ name ∈ BasicCode.cNames, name.toList.head? ≠ some 'p' := by
    decide +kernel
  intro member
  obtain ⟨rest, spelled⟩ := Parameters.candidate_head index suffix
  apply noLetter _ member
  rw [spelled]
  rfl

/-- A definition has a parameter named like a basic type exactly if that is
the first parameter of this name and the name is an integer type's. -/
theorem Defines.paramNames_type_iff
    (defines : Defines program function before definition after)
    (isType : name ∈ BasicCode.cNames) {index : Nat} {param : Field}
    (found : function.type.params[index]? = some param) :
    definition.paramNames[index]? = some name ↔
      param.name = name ∧ name ∈ integerNames ∧ name ∉ program.globals ∧
        name ∉ (function.type.params.take index).map Field.name := by
  obtain ⟨renamed, isRenamed, stays⟩ :=
    Parameters.forDefinition_getElem? program.globals found
  have named : definition.paramNames[index]? = some renamed.name := by
    rw [defines.paramNames_eq, List.getElem?_map]
    exact congrArg (Option.map Field.name) isRenamed
  rw [named]
  constructor
  · intro same
    cases same
    split at stays
    · rename_i usable
      rw [stays] at isType ⊢
      obtain ⟨integer, free⟩ := (isUsable_type_iff isType).mp usable.1
      exact ⟨rfl, integer, free, usable.2⟩
    · obtain ⟨suffix, isCandidate⟩ := stays
      rw [isCandidate] at isType
      exact absurd isType (candidate_not_mem_cNames index suffix)
  · rintro ⟨rfl, integer, free, fresh⟩
    have usable := (isUsable_type_iff isType).mpr ⟨integer, free⟩
    rw [if_pos ⟨usable, fresh⟩] at stays
    rw [stays]

private theorem split_at {entries : List α} {index : Nat} {entry : α}
    (found : entries[index]? = some entry) :
    entries = entries.take index ++ entry :: entries.drop (index + 1) := by
  obtain ⟨inside, rfl⟩ := List.getElem?_eq_some_iff.mp found
  rw [List.getElem_cons_drop, List.take_append_drop]

/-- The parameter that keeps the name of a type, if there is one. -/
theorem Defines.param_of_type
    (defines : Defines program function before definition after)
    (isType : name ∈ BasicCode.cNames) {index : Nat}
    (named : definition.paramNames[index]? = some name) :
    ∃ front param back, function.type.params = front ++ param :: back ∧
      front.length = index ∧ param.name = name ∧ name ∈ integerNames ∧
        name ∉ program.globals ∧ name ∉ front.map Field.name := by
  have inside := (List.getElem?_eq_some_iff.mp named).1
  rw [defines.paramNames_eq, List.length_map,
    (definitionType_names program function.type).2.1] at inside
  have found := List.getElem?_eq_getElem inside
  obtain ⟨kept, integer, free, fresh⟩ :=
    (defines.paramNames_type_iff isType found).mp named
  refine ⟨_, _, _, split_at found, ?_, kept, integer, free, fresh⟩
  exact List.length_take_of_le (Nat.le_of_lt inside)

end Parameters

section Hiding

variable {program : Program} {function : BodiedFunction} {definition : Definition}
  {before after : List NativeFunction} {stored : List String}

theorem mem_globals_of_called {instruction : Instruction} {symbol : String}
    (calls : program.called? instruction = some symbol) :
    symbol ∈ program.globals := by
  cases instruction with
  | invoke number args results =>
      obtain ⟨callee, found, named⟩ := Option.bind_eq_some_iff.mp calls
      exact List.mem_filterMap.mpr ⟨callee, List.mem_of_getElem? found, named⟩
  | compute _ _ _ _ => cases calls
  | branch _ _ _ _ => cases calls
  | jump _ => cases calls
  | leave => cases calls

theorem call_of_called {item : Item} {symbol : String}
    (calls : item.called? = some symbol) :
    ∃ target args, item = .statement (.call target symbol args) := by
  unfold Item.called? at calls
  split at calls
  · cases calls
    exact ⟨_, _, rfl⟩
  · cases calls

theorem HidesNothing.symbols_apart
    (hides : HidesNothing program function definition)
    (whole : Laid program definition stored []
      ⟨.function, function, definition.paramNames.map .param, []⟩ definition.items)
    {around : Naming} {owner : Owner} {inner : BodiedFunction} {items : List Item}
    (region : Region program function definition around owner inner items)
    {instruction : Instruction} (inside : instruction ∈ inner.body.instructions)
    {symbol : String} (calls : program.called? instruction = some symbol)
    {generated : C.Variable}
    (seen : Naming.resolve ((owner, definition.namesAfter items owner) :: around)
      generated.text = some generated.home) :
    generated.text ≠ symbol := by
  obtain ⟨_, _, laid⟩ := region.laid whole
  have called : symbol ∈ items.filterMap Item.called? := by
    rw [laid.calls]
    exact List.mem_filterMap.mpr ⟨instruction, inside, calls⟩
  obtain ⟨item, member, itemCalls⟩ := List.mem_filterMap.mp called
  obtain ⟨target, args, rfl⟩ := call_of_called itemCalls
  obtain ⟨front, back, rfl⟩ := List.append_of_mem member
  have unseen := hides.symbols _ _ _ _ _ _ _ _ region
  rw [laid.namesAfter_front rfl rfl] at unseen
  intro same
  rw [same, unseen] at seen
  cases seen

theorem SpelledApart.hides_no_symbol
    (apart : SpelledApart program function definition)
    (defines : Defines program function before definition after)
    (whole : Laid program definition stored []
      ⟨.function, function, definition.paramNames.map .param, []⟩ definition.items)
    {around : Naming} {owner : Owner} {inner : BodiedFunction} {front back : List Item}
    {target : Option C.Variable} {symbol : String} {args : List C.Variable}
    (region : Region program function definition around owner inner
      (front ++ .statement (.call target symbol args) :: back)) :
    Naming.resolve ((owner, definition.namesAfter front owner) :: around) symbol =
      none := by
  obtain ⟨_, _, laid⟩ := region.laid whole
  have called : symbol ∈ inner.body.instructions.filterMap program.called? := by
    rw [← laid.calls, List.filterMap_append]
    exact List.mem_append_right _ List.mem_cons_self
  obtain ⟨instruction, inside, calls⟩ := List.mem_filterMap.mp called
  rw [laid.namesAfter_front rfl rfl]
  by_contra seen
  rcases laid.origin seen with isParam | ⟨generated, made, same, resolves⟩
  · rw [defines.paramNames_eq] at isParam
    have usable := (definitionType_names program function.type).2.2 symbol isParam
    simp [Parameters.isUsable, mem_globals_of_called calls] at usable
  · exact apart.symbols _ _ _ _ region instruction inside symbol calls generated made
      resolves same

theorem HidesNothing.types_apart
    (hides : HidesNothing program function definition)
    (defines : Defines program function before definition after)
    {front back : List Field} {param : Field}
    (same : function.type.params = front ++ param :: back)
    (integer : param.name ∈ integerNames) (free : param.name ∉ program.globals)
    (fresh : param.name ∉ front.map Field.name) :
    (∀ later ∈ definition.head.declarator.parameters.drop (front.length + 1),
      param.name ∉ later.typeNames) ∧
    (∀ later ∈ definition.head.declarator.later, param.name ∉ later.typeNames) ∧
    ∀ around owner inner items declaration,
      Region program function definition around owner inner items →
      .declare declaration ∈ items → param.name ∉ declaration.typeNames := by
  have isType : param.name ∈ BasicCode.cNames := by
    have integers : integerNames ⊆ BasicCode.cNames := by decide +kernel
    exact integers integer
  have named : definition.paramNames[front.length]? = some param.name := by
    have found : function.type.params[front.length]? = some param := by
      rw [same]
      simp
    apply (defines.paramNames_type_iff isType found).mpr
    refine ⟨rfl, integer, free, ?_⟩
    rw [same, List.take_left]
    exact fresh
  have isParam := List.mem_of_getElem? named
  refine ⟨?_, ?_, ?_⟩
  · intro later member mentions
    obtain ⟨offset, found⟩ := List.mem_iff_getElem?.mp member
    rw [List.getElem?_drop] at found
    apply hides.params _ _ _ (split_at found) _ mentions
    have earlier : front.length < front.length + 1 + offset := by omega
    have stands := named
    rw [Definition.paramNames, ← List.getElem?_take_of_lt earlier, ← List.map_take]
      at stands
    exact List.mem_of_getElem? stands
  · intro later member mentions
    exact hides.results later member _ mentions isParam
  · intro around owner inner items declaration region member mentions
    obtain ⟨before, after, rfl⟩ := List.append_of_mem member
    apply region.sees_param isParam before
    exact hides.types _ _ _ _ _ _ region _ mentions

/-- A type in sight of something that a definition declares is the name that
a parameter has kept.  Only part of the names may be declared so far, but all
that are come from the same two sources. -/
theorem SpelledApart.hides_no_type
    (apart : SpelledApart program function definition)
    (defines : Defines program function before definition after)
    (whole : Laid program definition stored []
      ⟨.function, function, definition.paramNames.map .param, []⟩ definition.items)
    {around : Naming} {owner : Owner} {inner : BodiedFunction} {front back : List Item}
    {declaration : C.Declaration}
    (region : Region program function definition around owner inner
      (front ++ .declare declaration :: back))
    {name : String} (mentions : name ∈ declaration.typeNames) :
    Naming.resolve ((owner, definition.namesAfter front owner) :: around) name =
      none := by
  obtain ⟨_, _, laid⟩ := region.laid whole
  have member : Item.declare declaration ∈ front ++ .declare declaration :: back :=
    List.mem_append_right _ List.mem_cons_self
  have isType := laid.basics declaration member mentions
  by_contra seen
  rcases laid.origin (resolve_at_end rfl seen) with
    isParam | ⟨generated, made, rfl, _⟩
  · obtain ⟨index, named⟩ := List.mem_iff_getElem?.mp isParam
    obtain ⟨earlier, param, later, same, _, rfl, integer, free, fresh⟩ :=
      defines.param_of_type isType named
    obtain ⟨_, _, unmentioned⟩ := apart.types earlier param later same integer free fresh
    exact unmentioned _ _ _ _ declaration region member mentions
  · exact C.Variable.text_not_mem_cNames made isType

theorem SpelledApart.hides_no_param
    (apart : SpelledApart program function definition)
    (defines : Defines program function before definition after)
    {front back : List C.Declaration} {param : C.Declaration}
    (same : definition.head.declarator.parameters = front ++ param :: back)
    {name : String} (mentions : name ∈ param.typeNames) :
    name ∉ front.map (·.declarator.declared) := by
  have member : param ∈ definition.head.declarator.parameters := by
    rw [same]
    exact List.mem_append_right _ List.mem_cons_self
  have isType := defines.head_typeNames
    (C.Declarator.typeNames_of_mem_parameters member mentions)
  intro earlier
  obtain ⟨index, found⟩ := List.mem_iff_getElem?.mp earlier
  have inside := (List.getElem?_eq_some_iff.mp found).1
  have named : definition.paramNames[index]? = some name := by
    rw [Definition.paramNames, same, List.map_append, List.getElem?_append_left inside]
    exact found
  obtain ⟨before, kept, after, sameParams, position, rfl, integer, free, fresh⟩ :=
    defines.param_of_type isType named
  obtain ⟨unmentioned, _, _⟩ := apart.types before kept after sameParams integer free
    fresh
  rw [List.length_map, ← position] at inside
  refine unmentioned param ?_ mentions
  rw [same, List.drop_append_of_le_length inside]
  exact List.mem_append_right _ List.mem_cons_self

theorem SpelledApart.hides_no_result
    (apart : SpelledApart program function definition)
    (defines : Defines program function before definition after)
    {later : C.Declaration} (member : later ∈ definition.head.declarator.later)
    {name : String} (mentions : name ∈ later.typeNames) :
    name ∉ definition.paramNames := by
  have isType := defines.head_typeNames
    (C.Declarator.typeNames_of_mem_later member mentions)
  intro isParam
  obtain ⟨index, named⟩ := List.mem_iff_getElem?.mp isParam
  obtain ⟨before, kept, after, same, _, rfl, integer, free, fresh⟩ :=
    defines.param_of_type isType named
  obtain ⟨_, unmentioned, _⟩ := apart.types before kept after same integer free fresh
  exact unmentioned later member mentions

end Hiding

/-- A definition hides something exactly if a symbol is spelled like a register
or temporary in sight of its call, or if a parameter keeps the name of an
integer type that is mentioned after it. -/
theorem source_hides_nothing_iff {program : Program} {source : C.Source}
    (generated : program.source = .ok source) :
    List.Forall₂ (fun function definition =>
      HidesNothing program function definition ↔
        SpelledApart program function definition)
      program.compiled source.definitions := by
  apply (Program.source_defines generated).imp
  rintro function definition ⟨before, after, defines⟩
  obtain ⟨stored, whole⟩ := Laid.whole defines
  constructor
  · intro hides
    constructor
    · intro _ _ _ _ region _ inside _ calls _ _ seen
      exact hides.symbols_apart whole region inside calls seen
    · intro _ _ _ same integer free fresh
      exact hides.types_apart defines same integer free fresh
  · intro apart
    constructor
    · intro _ _ _ _ _ _ _ _ region
      exact apart.hides_no_symbol defines whole region
    · intro _ _ _ _ _ _ region _ mentions
      exact apart.hides_no_type defines whole region mentions
    · intro _ _ _ same _ mentions
      exact apart.hides_no_param defines same mentions
    · intro _ member _ mentions
      exact apart.hides_no_result defines member mentions

/-- A function whose parameter is named like its type. -/
def veiling : BodiedFunction := ⟨"f", ⟨[⟨"uint8_t", 0⟩], []⟩, ⟨[0], []⟩⟩

def veilProgram : Program where
  name := "veil"
  types := ⟨.eight, [.basic ⟨0o11⟩]⟩
  callees := [.compiled veiling]

theorem veilProgram_source : veilProgram.source = .ok ⟨[],
    [⟨⟨.void, .function (.name "f") [⟨.named "uint8_t", .name "uint8_t"⟩]⟩,
      [.declare ⟨.named "uint8_t", .name "r0"⟩,
       .statement (.move (.register .function 0) (.param "uint8_t")),
       .statement (.leave none)]⟩]⟩ := by
  with_unfolding_all rfl

/-- The parameter hides its type from the register that it is copied to. -/
theorem veilProgram_hides : ∃ source definition, veilProgram.source = .ok source ∧
    source.definitions = [definition] ∧
      ¬ HidesNothing veilProgram veiling definition := by
  refine ⟨_, _, veilProgram_source, rfl, ?_⟩
  intro hides
  cases source_hides_nothing_iff veilProgram_source with
  | cons equivalent _ =>
      obtain ⟨_, _, unmentioned⟩ := (equivalent.mp hides).types [] ⟨"uint8_t", 0⟩ [] rfl
        (by decide) (by decide) (by decide)
      exact unmentioned _ _ _ _ _ .whole List.mem_cons_self List.mem_cons_self

end Lowering

end CBackend
