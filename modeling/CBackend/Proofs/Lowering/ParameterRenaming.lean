import CBackend.Proofs.Lowering.ParameterNames

/-!
# Renaming parameters

A definition renames as few parameters as it can.  A name that has no defect
of its own and stands nowhere before is left alone, and every other one goes:
a generated name is never the declared one again, because a declared name with
a defect is not usable and a repeated one is in use.  What is renamed once
needs no further renaming.
-/

namespace CBackend

namespace Parameters

variable {reserved : List String} {params : List Field}

theorem forDefinition_names_getElem? {index : Nat} {renamed : Field}
    (isRenamed : (forDefinition reserved params)[index]? = some renamed) :
    ((forDefinition reserved params).map Field.name)[index]? = some renamed.name := by
  rw [List.getElem?_map, isRenamed]
  rfl

/-- The first parameter of a usable name keeps it. -/
theorem forDefinition_first {name : String} (usable : isUsable reserved name = true)
    (declared : name ∈ params.map Field.name) :
    ((forDefinition reserved params).map Field.name)[(params.map Field.name).idxOf name]? =
      some name := by
  have position := List.getElem?_idxOf declared
  rw [List.getElem?_map] at position
  obtain ⟨param, found, rfl⟩ := Option.map_eq_some_iff.mp position
  have unrepeated : param.name ∉
      (params.take ((params.map Field.name).idxOf param.name)).map Field.name := by
    rw [List.map_take, List.mem_take_iff_idxOf_lt declared]
    exact Nat.lt_irrefl _
  obtain ⟨renamed, isRenamed, keeps⟩ := forDefinition_getElem? reserved found
  rw [if_pos ⟨usable, unrepeated⟩] at keeps
  rw [← keeps]
  exact forDefinition_names_getElem? (keeps ▸ isRenamed)

/-- A parameter has its declared name in the definition exactly if the name is
usable and does not repeat an earlier one. -/
theorem forDefinition_keeps_iff {index : Nat} {param renamed : Field}
    (found : params[index]? = some param)
    (isRenamed : (forDefinition reserved params)[index]? = some renamed) :
    renamed.name = param.name ↔ isUsable reserved param.name = true ∧
      param.name ∉ (params.take index).map Field.name := by
  constructor
  · intro same
    have usable : isUsable reserved param.name = true := by
      rw [← same]
      exact forDefinition_isUsable (List.mem_map_of_mem (List.mem_of_getElem? isRenamed))
    refine ⟨usable, ?_⟩
    intro earlier
    have declared : param.name ∈ params.map Field.name :=
      List.mem_map_of_mem (List.mem_of_getElem? found)
    rw [List.map_take, List.mem_take_iff_idxOf_lt declared] at earlier
    have here := forDefinition_names_getElem? isRenamed
    have first := forDefinition_first usable declared
    rw [same] at here
    have position := (List.getElem?_inj (List.getElem?_eq_some_iff.mp first).1
      (forDefinition_nodup reserved params)).mp (first.trans here.symm)
    exact Nat.ne_of_lt earlier position
  · intro stays
    obtain ⟨other, isOther, keeps⟩ := forDefinition_getElem? reserved found
    rw [if_pos stays] at keeps
    rw [isRenamed] at isOther
    cases isOther
    rw [keeps]

/-- Parameters with usable and distinct names are left as they are. -/
theorem forDefinition_eq_self (distinct : (params.map Field.name).Nodup)
    (usable : ∀ name ∈ params.map Field.name, isUsable reserved name = true) :
    forDefinition reserved params = params := by
  apply List.ext_getElem?
  intro index
  cases found : params[index]? with
  | none =>
      have lengths := congrArg List.length (forDefinition_types reserved params)
      rw [List.length_map, List.length_map] at lengths
      rw [List.getElem?_eq_none_iff] at found ⊢
      rw [lengths]
      exact found
  | some param =>
      obtain ⟨renamed, isRenamed, keeps⟩ := forDefinition_getElem? reserved found
      have declared : param.name ∈ params.map Field.name :=
        List.mem_map_of_mem (List.mem_of_getElem? found)
      have here : (params.map Field.name)[index]? = some param.name := by
        rw [List.getElem?_map, found]
        rfl
      have position := (List.getElem?_inj (List.getElem?_eq_some_iff.mp here).1 distinct).mp
        (here.trans (List.getElem?_idxOf declared).symm)
      have unrepeated : param.name ∉ (params.take index).map Field.name := by
        rw [List.map_take, List.mem_take_iff_idxOf_lt declared, ← position]
        exact Nat.lt_irrefl _
      rw [if_pos ⟨usable param.name declared, unrepeated⟩] at keeps
      rw [isRenamed, keeps]

theorem forDefinition_idempotent (reserved : List String) (params : List Field) :
    forDefinition reserved (forDefinition reserved params) = forDefinition reserved params :=
  forDefinition_eq_self (forDefinition_nodup reserved params)
    fun _ member => forDefinition_isUsable member

theorem looksLikeRegister_iff {name : String} :
    looksLikeRegister name = true ↔
      ∃ digits, digits ≠ [] ∧ (∀ digit ∈ digits, digit.isDigit = true) ∧
        name.toList = 'r' :: digits := by
  unfold looksLikeRegister
  split
  · rename_i digit digits characters
    rw [List.all_eq_true, characters]
    constructor
    · intro numeric
      exact ⟨_, List.cons_ne_nil _ _, numeric, rfl⟩
    · rintro ⟨others, _, numeric, same⟩
      cases same
      exact numeric
  · rename_i otherwise
    refine iff_of_false nofun ?_
    rintro ⟨digits, some, _, characters⟩
    cases digits with
    | nil => exact some rfl
    | cons digit digits => exact otherwise digit digits characters

end Parameters

namespace Program

/-- A name that a parameter may have in a definition: it is a name, it is no
word of the language, no variable of the definition is called by it, and it
hides neither a function of the program nor one that is linked. -/
structure Admits (program : Program) (name : String) : Prop where
  nonempty : name ≠ ""
  noKeyword : name ∉ Parameters.keywords
  noRegister : ∀ digits, digits ≠ [] → (∀ digit ∈ digits, digit.isDigit = true) →
    name.toList ≠ 'r' :: digits
  noTemporary : ¬ "_ret".toList <:+ name.toList
  noFunction : ∀ function, .compiled function ∈ program.callees → name ≠ function.name
  noSymbol : ∀ native, .native native ∈ program.callees → name ≠ native.symbol

theorem mem_globals_iff {program : Program} {name : String} :
    name ∈ program.globals ↔
      (∃ function, .compiled function ∈ program.callees ∧ function.name = name) ∨
        ∃ native, .native native ∈ program.callees ∧ native.symbol = name := by
  rw [globals, List.mem_filterMap]
  constructor
  · rintro ⟨callee, member, named⟩
    cases callee with
    | native native => exact .inr ⟨native, member, Option.some.inj named⟩
    | compiled function => exact .inl ⟨function, member, Option.some.inj named⟩
    | inlined _ => cases named
  · rintro (⟨function, member, rfl⟩ | ⟨native, member, rfl⟩)
    · exact ⟨_, member, rfl⟩
    · exact ⟨_, member, rfl⟩

/-- Names are checked for exactly these defects. -/
theorem isUsable_iff_admits {program : Program} {name : String} :
    Parameters.isUsable program.globals name = true ↔ program.Admits name := by
  simp only [Parameters.isUsable, Bool.and_eq_true, bne_iff_ne, Bool.not_eq_true',
    Bool.eq_false_iff, ne_eq, List.contains_iff_mem, Parameters.looksLikeRegister_iff,
    Parameters.looksLikeTemporary, List.isSuffixOf_iff_suffix, mem_globals_iff]
  constructor
  · rintro ⟨⟨⟨⟨nonempty, noRegister⟩, noTemporary⟩, noKeyword⟩, noGlobal⟩
    rw [not_or] at noGlobal
    refine ⟨nonempty, noKeyword, ?_, noTemporary, ?_, ?_⟩
    · intro digits some numeric characters
      exact noRegister ⟨digits, some, numeric, characters⟩
    · rintro function member rfl
      exact noGlobal.1 ⟨function, member, rfl⟩
    · rintro native member rfl
      exact noGlobal.2 ⟨native, member, rfl⟩
  · rintro ⟨nonempty, noKeyword, noRegister, noTemporary, noFunction, noSymbol⟩
    refine ⟨⟨⟨⟨nonempty, ?_⟩, noTemporary⟩, noKeyword⟩, ?_⟩
    · rintro ⟨digits, some, numeric, characters⟩
      exact noRegister digits some numeric characters
    · rintro (⟨function, member, same⟩ | ⟨native, member, same⟩)
      · exact noFunction function member same.symm
      · exact noSymbol native member same.symm

/-- Whatever the parameters of a function are called and whatever the program
has, a definition keeps the results and the types of all parameters, and gives
the parameters distinct names that the program admits.  A parameter is called
as it was declared exactly if the program admits the name and no earlier
parameter has it.  Renaming what is renamed changes nothing.  The search for a
free name ends, at the first candidate that is not in use. -/
theorem parameters_renamed_minimally (program : Program) (type : FunctionType) :
    let renamed := program.definitionType type
    renamed.results = type.results ∧
    renamed.params.map Field.type = type.params.map Field.type ∧
    (renamed.params.map Field.name).Nodup ∧
    (∀ param ∈ renamed.params, program.Admits param.name) ∧
    (∀ index declared given, type.params[index]? = some declared →
      renamed.params[index]? = some given →
        (given.name = declared.name ↔ program.Admits declared.name ∧
          declared.name ∉ (type.params.take index).map Field.name)) ∧
    program.definitionType renamed = renamed ∧
    ∀ used index, ∃ suffix ≤ used.length,
      Parameters.freshName used index = Parameters.candidate index suffix ∧
      Parameters.candidate index suffix ∉ used ∧
      ∀ earlier < suffix, Parameters.candidate index earlier ∈ used := by
  intro renamed
  refine ⟨rfl, Parameters.forDefinition_types _ _, Parameters.forDefinition_nodup _ _,
    ?_, ?_, ?_, ?_⟩
  · intro param member
    exact isUsable_iff_admits.mp (Parameters.forDefinition_isUsable (List.mem_map_of_mem member))
  · intro index declared given found isGiven
    rw [← isUsable_iff_admits]
    exact Parameters.forDefinition_keeps_iff found isGiven
  · exact congrArg (FunctionType.mk · type.results) (Parameters.forDefinition_idempotent _ _)
  · intro used index
    obtain ⟨suffix, found, free, bounded, first⟩ := Parameters.freshName_spec used index
    exact ⟨suffix, bounded, found, free, first⟩

example : (Parameters.forDefinition ["p2"]
    [⟨"p1", 0⟩, ⟨"", 0⟩, ⟨"int", 0⟩, ⟨"p1_1", 0⟩]).map Field.name =
      ["p1", "p1_2", "p2_1", "p1_1"] := by
  rfl

end Program

end CBackend
