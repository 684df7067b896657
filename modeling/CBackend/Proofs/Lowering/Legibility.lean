import CBackend.Proofs.C.Statements
import CBackend.Proofs.Lowering.DeclaredTypes
import CBackend.Proofs.Lowering.Mentions
import CBackend.Proofs.Lowering.Spelling

/-!
# Legible sources

If all names of a program are identifiers, so are all names in its source.
Registers, labels and generated parameters are a letter with numerals, which
no keyword ends in, and a temporary ends in a way that no keyword does.  So a
generated text is read back as the source is spelled.
-/

namespace CBackend

namespace C

theorem isIdentifier_of_cons {name : String} {first : Char} {later : List Char}
    (spelled : name.toList = first :: later) (begins : isWordChar first = true)
    (letter : first.isDigit = false) (word : ∀ char ∈ later, isWordChar char = true)
    (free : name ∉ Parameters.keywords) : isIdentifier name = true := by
  simp only [isIdentifier, spelled, begins, letter, List.all_eq_true.mpr word]
  simpa using free

theorem isWordChar_of_mem_toDigits {char : Char} {number : Nat}
    (member : char ∈ Nat.toDigits 10 number) : isWordChar char = true := by
  have isDigit : char.isDigit = true :=
    Nat.isDigit_of_mem_toDigits (by decide) (by decide) member
  simp [isWordChar, Char.isAlphanum, isDigit]

/-- A letter and more, with a numeral at the end. -/
theorem isIdentifier_of_numeral {name : String} {first : Char} {lead : List Char}
    {number : Nat} (spelled : name.toList = first :: (lead ++ Nat.toDigits 10 number))
    (begins : isWordChar first = true) (letter : first.isDigit = false)
    (word : ∀ char ∈ lead, isWordChar char = true) : isIdentifier name = true := by
  have endless : ∀ keyword ∈ Parameters.keywords,
      keyword.toList.getLast?.all (fun char => !char.isDigit) = true := by decide
  refine isIdentifier_of_cons spelled begins letter ?_ ?_
  · intro char member
    rcases List.mem_append.mp member with inLead | inNumeral
    · exact word char inLead
    · exact isWordChar_of_mem_toDigits inNumeral
  · intro keyword
    have present : Nat.toDigits 10 number ≠ [] := Nat.toDigits_ne_nil
    have last := endless name keyword
    rw [spelled, ← List.cons_append, List.getLast?_append_of_ne_nil _ present,
      List.getLast?_eq_some_getLast present] at last
    have isDigit : ((Nat.toDigits 10 number).getLast present).isDigit = true :=
      Nat.isDigit_of_mem_toDigits (by decide) (by decide) (List.getLast_mem present)
    simp [isDigit] at last

/-- A letter and more, with one of two endings that no keyword has. -/
theorem isIdentifier_of_suffix {name : String} {first : Char} {lead suffix : List Char}
    (spelled : name.toList = first :: (lead ++ suffix))
    (ending : suffix ∈ ["_ret".toList, "_end".toList])
    (begins : isWordChar first = true) (letter : first.isDigit = false)
    (word : ∀ char ∈ lead, isWordChar char = true) : isIdentifier name = true := by
  have endless : ∀ keyword ∈ Parameters.keywords, ∀ suffix ∈ ["_ret".toList, "_end".toList],
      suffix.isSuffixOf keyword.toList = false := by decide
  have endingWord : ∀ suffix ∈ ["_ret".toList, "_end".toList],
      suffix.all isWordChar = true := by decide
  refine isIdentifier_of_cons spelled begins letter ?_ ?_
  · intro char member
    rcases List.mem_append.mp member with inLead | inSuffix
    · exact word char inLead
    · exact List.all_eq_true.mp (endingWord suffix ending) char inSuffix
  · intro keyword
    have isSuffix : suffix.isSuffixOf name.toList = true := by
      rw [List.isSuffixOf_iff_suffix, spelled, ← List.cons_append]
      exact List.suffix_append _ _
    rw [endless name keyword suffix ending] at isSuffix
    cases isSuffix

/-- The numeral of an expansion and the letters behind it. -/
theorem lead_isWordChar (expansion : Nat) {letters : List Char}
    (word : letters.all isWordChar = true) :
    ∀ char ∈ Nat.toDigits 10 expansion ++ letters, isWordChar char = true := by
  intro char member
  rcases List.mem_append.mp member with inNumeral | inLetters
  · exact isWordChar_of_mem_toDigits inNumeral
  · exact List.all_eq_true.mp word char inLetters

theorem Variable.register_isIdentifier (owner : Owner) (number : RegisterNumber) :
    isIdentifier (Variable.register owner number).text = true := by
  cases owner with
  | function =>
      exact isIdentifier_of_numeral (Variable.toList_function_register number) (by decide)
        (by decide) (List.forall_mem_nil _)
  | expansion expansion =>
      have spelled : (Variable.register (.expansion expansion) number).text.toList =
          'i' :: ((Nat.toDigits 10 expansion ++ ['_', 'r']) ++ Nat.toDigits 10 number) := by
        rw [Variable.toList_expansion_register]
        simp
      exact isIdentifier_of_numeral spelled (by decide) (by decide)
        (lead_isWordChar expansion (by decide))

theorem Variable.result_isIdentifier {callee : String}
    (identifier : isIdentifier callee = true) :
    isIdentifier (Variable.result callee).text = true := by
  have spelled := Variable.toList_result callee
  unfold isIdentifier at identifier
  split at identifier
  · cases identifier
  · rename_i first later characters
    simp only [Bool.and_eq_true, List.all_eq_true, Bool.not_eq_true'] at identifier
    obtain ⟨⟨⟨begins, letter⟩, word⟩, _⟩ := identifier
    rw [characters, List.cons_append] at spelled
    exact isIdentifier_of_suffix spelled (by decide) begins letter word

theorem Label.text_isIdentifier (label : Label) : isIdentifier label.text = true := by
  rcases label with ⟨_ | expansion, number⟩ | expansion
  · have spelled : (Label.block .function number).text.toList =
        'b' :: (['b'] ++ Nat.toDigits 10 number) := Label.toList_function_block number
    exact isIdentifier_of_numeral spelled (by decide) (by decide)
      (List.forall_mem_singleton.mpr (by decide))
  · have spelled : (Label.block (.expansion expansion) number).text.toList = 'i' ::
        ((Nat.toDigits 10 expansion ++ ['_', 'b', 'b']) ++ Nat.toDigits 10 number) := by
      rw [Label.toList_expansion_block]
      simp
    exact isIdentifier_of_numeral spelled (by decide) (by decide)
      (lead_isWordChar expansion (by decide))
  · exact isIdentifier_of_suffix (Label.toList_finish expansion) (by decide) (by decide)
      (by decide) fun _ member => isWordChar_of_mem_toDigits member

/-- Labels are identifiers anyway, so the variables and the symbol of a
statement decide. -/
theorem Statement.legible_spelled {statement : Statement}
    (mentions : ∀ mentioned ∈ statement.variables, isIdentifier mentioned.text = true)
    (symbols : ∀ target symbol args, statement = .call target symbol args →
      isIdentifier symbol = true) : statement.spelled.Legible := by
  cases statement with
  | branch left test right target =>
      intro name member
      simp only [Statement.spelled, Spelled.Statement.names, List.mem_cons,
        List.not_mem_nil, or_false] at member
      rcases member with rfl | rfl | rfl
      · exact mentions left (by simp [Statement.variables])
      · exact mentions right (by simp [Statement.variables])
      · exact target.text_isIdentifier
  | goto target =>
      intro name member
      rw [List.mem_singleton.mp member]
      exact target.text_isIdentifier
  | call target symbol args =>
      intro name member
      simp only [Statement.spelled, Spelled.Statement.names, List.mem_append,
        List.mem_cons, Option.mem_toList, Option.map_eq_some_iff, List.mem_map] at member
      rcases member with ⟨temporary, isTarget, rfl⟩ | rfl | ⟨arg, isArg, rfl⟩
      · exact mentions temporary (by simp [Statement.variables, isTarget])
      · exact symbols _ _ _ rfl
      · exact mentions arg (by simp [Statement.variables, isArg])
  | move target source => simpa [Statement.variables, Spelled.Statement.Legible,
      Statement.spelled, Spelled.Statement.names] using mentions
  | compute target left operator right => simpa [Statement.variables,
      Spelled.Statement.Legible, Statement.spelled, Spelled.Statement.names] using mentions
  | leave value => simpa [Statement.variables, Spelled.Statement.Legible,
      Statement.spelled, Spelled.Statement.names] using mentions

/-- A block is legible if all its items are. -/
theorem allLegible_spelled_iff {items : List Item} :
    Spelled.AllLegible (spelledItems items) ↔ ∀ item ∈ items, item.spelled.Legible := by
  rw [spelledItems_eq_map, Spelled.allLegible_iff]
  simp

end C

open C (isIdentifier isOptionalName)

/-- The name and the symbol of a callee are identifiers. -/
def Callee.namesFit (callee : Callee) : Bool :=
  isIdentifier callee.name && callee.symbol?.all isIdentifier && callee.type.namesFit

/-- All names in a program are identifiers; parameters and results may have
none. -/
def Program.namesFit (program : Program) : Bool :=
  program.types.namesFit && program.callees.all Callee.namesFit

namespace Program

variable {program : Program}

theorem types_namesFit (fits : program.namesFit = true) : program.types.namesFit = true := by
  rw [namesFit, Bool.and_eq_true] at fits
  exact fits.1

theorem callee_namesFit (fits : program.namesFit = true) {callee : Callee}
    (member : callee ∈ program.callees) :
    isIdentifier callee.name = true ∧
      (∀ symbol ∈ callee.symbol?, isIdentifier symbol = true) ∧
        callee.type.namesFit = true := by
  rw [namesFit, Bool.and_eq_true, List.all_eq_true] at fits
  have named := fits.2 callee member
  rw [Callee.namesFit, Bool.and_eq_true, Bool.and_eq_true, Option.all_eq_true] at named
  exact ⟨named.1.1, named.1.2, named.2⟩

theorem called_isIdentifier (fits : program.namesFit = true) {instruction : Instruction}
    {symbol : String} (calls : program.called? instruction = some symbol) :
    isIdentifier symbol = true := by
  cases instruction with
  | invoke number args results =>
      obtain ⟨callee, found, named⟩ := Option.bind_eq_some_iff.mp calls
      exact (callee_namesFit fits (List.mem_of_getElem? found)).2.1 symbol named
  | compute _ _ _ _ => cases calls
  | branch _ _ _ _ => cases calls
  | jump _ => cases calls
  | leave => cases calls

end Program

namespace Lowering

variable {program : Program} {activation : Activation} {before after : Usage}

theorem Usage.Sound.isIdentifier (sound : after.Sound program)
    (fits : program.namesFit = true) {callee : String} (kept : callee ∈ after.keptResults) :
    isIdentifier (C.Variable.result callee).text = true := by
  obtain ⟨found, member, rfl⟩ := sound.named callee kept
  exact C.Variable.result_isIdentifier (Program.callee_namesFit fits member).1

theorem EmitsPlain.legible {instruction : Instruction} {items : List C.Item}
    (emitted : EmitsPlain program activation before instruction items after)
    (fits : program.namesFit = true) (sound : after.Sound program) :
    ∀ item ∈ items, item.spelled.Legible := by
  intro item member
  obtain ⟨statement, rfl⟩ := emitted.statement_of_mem member
  refine C.Statement.legible_spelled ?_ ?_
  · intro mentioned isMentioned
    rcases emitted.mentions member isMentioned with ⟨number, _, rfl⟩ | ⟨callee, kept, rfl⟩
    · exact C.Variable.register_isIdentifier _ number
    · exact sound.isIdentifier fits kept
  · rintro target symbol args rfl
    have called : symbol ∈ items.filterMap C.Item.called? :=
      List.mem_filterMap.mpr ⟨_, member, rfl⟩
    rw [emitted.calls, Option.mem_toList] at called
    exact Program.called_isIdentifier fits called

/-- A copy between variables with legible names. -/
theorem legible_move {target source : C.Variable}
    (targetFits : isIdentifier target.text = true)
    (sourceFits : isIdentifier source.text = true) :
    (C.Item.statement (.move target source)).spelled.Legible := by
  refine C.Statement.legible_spelled ?_ (by simp)
  intro mentioned member
  rcases List.mem_cons.mp member with rfl | later
  · exact targetFits
  · rw [List.mem_singleton.mp later]
    exact sourceFits

theorem inputs_legible {sources : List C.Variable}
    (sourcesFit : ∀ source ∈ sources, isIdentifier source.text = true) :
    ∀ item ∈ activation.inputs sources, item.spelled.Legible := by
  intro item member
  obtain ⟨⟨source, number⟩, found, rfl⟩ := List.mem_map.mp member
  have isSource := List.mem_of_getElem? (List.mem_zipIdx_iff_getElem?.mp found)
  exact legible_move (C.Variable.register_isIdentifier _ _) (sourcesFit source isSource)

theorem outputs_legible {targets : List C.Variable}
    (targetsFit : ∀ target ∈ targets, isIdentifier target.text = true) :
    ∀ item ∈ activation.outputs targets, item.spelled.Legible := by
  intro item member
  obtain ⟨⟨target, index⟩, found, rfl⟩ := List.mem_map.mp member
  have isTarget := List.mem_of_getElem? (List.mem_zipIdx_iff_getElem?.mp found)
  exact legible_move (targetsFit target isTarget) (C.Variable.register_isIdentifier _ _)

theorem slots_isIdentifier (activation : Activation) (numbers : List RegisterNumber) :
    ∀ source ∈ numbers.map activation.slot, isIdentifier source.text = true := by
  intro source member
  obtain ⟨number, _, rfl⟩ := List.mem_map.mp member
  exact C.Variable.register_isIdentifier _ number

private theorem legible_of_mapM (typeOf : α → TypeNumber) (nameOf : α → String)
    {types : TypeStore} {entries : List α} {items : List C.Item}
    (typesFit : types.namesFit = true)
    (named : ∀ entry ∈ entries, isIdentifier (nameOf entry) = true)
    (success : (entries.mapM fun entry => do
      return C.Item.declare (← types.declare (typeOf entry)
        (.name (nameOf entry))) : Except LoweringError _) = .ok items) :
    ∀ item ∈ items, item.spelled.Legible := by
  have related := Success.mapM_iff.mp success
  clear success
  induction related with
  | nil => exact List.forall_mem_nil _
  | cons first _ induction =>
      obtain ⟨declaration, declared, same⟩ := Success.bind_iff.mp first
      cases same
      have identifier := named _ List.mem_cons_self
      refine List.forall_mem_cons.mpr ⟨⟨?_, ?_⟩, induction fun entry member =>
        named entry (List.mem_cons_of_mem _ member)⟩
      · exact TypeStore.declare_legible typesFit declared
          (C.isOptionalName_iff.mpr (.inr identifier)) (.inl rfl)
      · rw [TypeStore.declare_declared declared]
        exact identifier

theorem declarations_legible {types : TypeStore} (typesFit : types.namesFit = true)
    {items : List C.Item} (success : activation.declarations types = .ok items) :
    ∀ item ∈ items, item.spelled.Legible :=
  legible_of_mapM Prod.fst (fun entry => (activation.slot entry.2).text) typesFit
    (fun _ _ => C.Variable.register_isIdentifier _ _) success

theorem temporaries_legible {types : TypeStore} (typesFit : types.namesFit = true)
    {results : List (String × TypeNumber)} {items : List C.Item}
    (named : ∀ entry ∈ results, isIdentifier (C.Variable.result entry.1).text = true)
    (success : temporaries types results = .ok items) :
    ∀ item ∈ items, item.spelled.Legible :=
  legible_of_mapM Prod.snd (fun entry => (C.Variable.result entry.1).text) typesFit named
    success

theorem Emits.legible {dormant : List CalleeNumber} {lines : List Line}
    {items : List C.Item}
    (emitted : Emits program dormant activation before lines items after)
    (fits : program.namesFit = true) (sound : before.Sound program) :
    ∀ item ∈ items, item.spelled.Legible := by
  induction emitted with
  | nil => exact List.forall_mem_nil _
  | start _ induction =>
      exact List.forall_mem_cons.mpr ⟨C.Label.text_isIdentifier _, induction sound⟩
  | plain here _ induction =>
      have soundHere := here.sound sound
      exact List.forall_mem_append.mpr ⟨here.legible fits soundHere, induction soundHere⟩
  | expanded _ _ _ _ _ _ _ declared inside _ induction inductionLater =>
      have soundOpened : Usage.Sound program (Usage.expanding _) :=
        ⟨sound.distinct, sound.named⟩
      refine List.forall_mem_cons.mpr
        ⟨C.allLegible_spelled_iff.mpr ?_, inductionLater (inside.sound soundOpened)⟩
      rw [expansionItems_eq, List.forall_mem_append, List.forall_mem_append,
        List.forall_mem_append, finishing, List.forall_mem_cons]
      exact ⟨declarations_legible (Program.types_namesFit fits) declared,
        inputs_legible (slots_isIdentifier _ _), induction soundOpened,
        C.Label.text_isIdentifier _, outputs_legible (slots_isIdentifier _ _)⟩

theorem candidate_isIdentifier (index suffix : Nat) :
    isIdentifier (Parameters.candidate index suffix) = true := by
  cases suffix with
  | zero =>
      exact C.isIdentifier_of_numeral (Parameters.toList_candidate_zero index) (by decide)
        (by decide) (List.forall_mem_nil _)
  | succ suffix =>
      have spelled : (Parameters.candidate index (suffix + 1)).toList = 'p' ::
          ((Nat.toDigits 10 index ++ ['_']) ++ Nat.toDigits 10 (suffix + 1)) := by
        rw [Parameters.toList_candidate_succ]
        simp
      exact C.isIdentifier_of_numeral spelled (by decide) (by decide)
        (C.lead_isWordChar index (by decide))

/-- The parameters of a definition all have names. -/
theorem definitionType_isIdentifier {type : FunctionType} (fits : type.namesFit = true)
    {param : Field} (member : param ∈ (program.definitionType type).params) :
    isIdentifier param.name = true := by
  obtain ⟨index, found⟩ := List.mem_iff_getElem?.mp member
  have inside := (List.getElem?_eq_some_iff.mp found).1
  rw [(definitionType_names program type).2.1] at inside
  obtain ⟨renamed, isRenamed, stays⟩ := Parameters.forDefinition_getElem? program.globals
    (List.getElem?_eq_getElem inside)
  cases found.symm.trans isRenamed
  split at stays
  · rename_i usable
    rw [FunctionType.namesFit, List.all_append, Bool.and_eq_true, List.all_eq_true] at fits
    have named := fits.1 _ (List.getElem_mem inside)
    rw [← stays] at named usable
    rcases C.isOptionalName_iff.mp named with missing | identifier
    · simp [Parameters.isUsable, missing] at usable
    · exact identifier
  · obtain ⟨suffix, isCandidate⟩ := stays
    rw [isCandidate]
    exact candidate_isIdentifier index suffix

theorem definitionType_namesFit {type : FunctionType} (fits : type.namesFit = true) :
    (program.definitionType type).namesFit = true := by
  have params : ∀ param ∈ (program.definitionType type).params,
      isOptionalName param.name = true := by
    intro param member
    exact C.isOptionalName_iff.mpr (.inr (definitionType_isIdentifier fits member))
  rw [FunctionType.namesFit, List.all_append, Bool.and_eq_true] at fits ⊢
  exact ⟨List.all_eq_true.mpr params, fits.2⟩

theorem Defines.legible {function : BodiedFunction} {before after : List NativeFunction}
    {definition : C.Definition}
    (defines : Defines program function before definition after)
    (fits : program.namesFit = true) (member : .compiled function ∈ program.callees) :
    definition.spelled.Legible := by
  cases defines with
  | mk _ _ emitted ends headed declared stored =>
      obtain ⟨nameFits, _, typeFits⟩ := Program.callee_namesFit fits member
      have typesFit := Program.types_namesFit fits
      have start : Usage.Sound program ⟨before, [], 0⟩ :=
        ⟨by simp [Usage.keptResults], by simp [Usage.keptResults]⟩
      have sound := emitted.sound start
      constructor
      · exact TypeStore.declareFunction_legible typesFit (definitionType_namesFit typeFits)
          (C.isOptionalName_iff.mpr (.inr nameFits)) headed
      · refine C.allLegible_spelled_iff.mpr ?_
        simp only [List.forall_mem_append]
        refine ⟨⟨⟨declarations_legible typesFit declared,
          temporaries_legible typesFit ?_ stored⟩, inputs_legible ?_⟩,
          emitted.legible fits start, ?_⟩
        · intro entry kept
          exact sound.isIdentifier fits (List.mem_map.mpr ⟨entry, kept, rfl⟩)
        · intro source isSource
          obtain ⟨param, isParam, rfl⟩ := List.mem_map.mp isSource
          exact definitionType_isIdentifier typeFits isParam
        · intro item last
          obtain ⟨value, rfl, finished⟩ := ends.leave_of_mem last
          refine C.Statement.legible_spelled ?_ (by simp)
          intro mentioned isMentioned
          have mentions : (definitionOf function).Mentions [] mentioned :=
            finish_mentions finished isMentioned
          rcases mentions with ⟨number, _, rfl⟩ | ⟨_, impossible, _⟩
          · exact C.Variable.register_isIdentifier _ number
          · cases impossible

end Lowering

/-- The text of a generated source is read back as the source is spelled. -/
theorem Program.ofText?_source {program : Program} {source : C.Source}
    (generated : program.source = .ok source) (fits : program.namesFit = true) :
    C.Spelled.Source.ofText? source.text = some source.spelled := by
  apply C.Source.ofText?_text
  have defines := source_defines generated
  obtain ⟨⟨definitions, natives⟩, defined, success⟩ := Success.bind_iff.mp generated
  obtain ⟨linked, declared, success⟩ := Success.bind_iff.mp success
  cases success
  constructor
  · intro prototype member
    obtain ⟨native, isNative, success⟩ :=
      Success.related_of_mem (Success.mapM_iff.mp declared).flip prototype member
    have none : Lowering.OwnNatives program [] := nofun
    have own := Lowering.definitions_own none defined native isNative
    obtain ⟨_, symbolFits, typeFits⟩ := callee_namesFit fits own
    exact TypeStore.declareFunction_legible (types_namesFit fits) typeFits
      (C.isOptionalName_iff.mpr (.inr (symbolFits _ rfl))) success
  · intro spelled member
    obtain ⟨definition, isDefinition, rfl⟩ := List.mem_map.mp member
    obtain ⟨function, isCompiled, before, after, defined⟩ :=
      Success.related_of_mem defines.flip definition isDefinition
    exact defined.legible fits (mem_compiled_iff.mp isCompiled)

end CBackend
