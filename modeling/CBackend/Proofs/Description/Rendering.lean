import CBackend.Description.Build
import CBackend.Proofs.Json.Records

/-!
# Texts of descriptions

How a description is written as JSON, with an object for each of its records.
The keys of an object stand in any order, a tag among them, and what is not
known there is passed over.  A field that has a default value may be left out
if it has this value.  Callees and prototypes have the parts of their signature
and body next to their name.

Main statement: a text that renders a description is read as this description.
What decides between the forms of types is that each of them has a key of its
own, so members that are passed over in a type may not have these keys.
-/

namespace CBackend.Description

open Json (keyed record tagged withDefault required string? natural? list? word? text TextForm
  NaturalForm ListForm Defaulted ObjectOf Reads)

def modeWord : PointerMode → String
  | .safe => "safe"
  | .raw => "unsafe"
  | .nullable false => "nullable"
  | .nullable true => "checked"

def ModeForm (mode : PointerMode) (value : Json) : Prop := value = text (modeWord mode)

/-- The keys that tell the forms of types apart. -/
def typeKeys : List String := ["ptr", "kind", "array", "capacity", "func"]

mutual

inductive TypeForm : TypeTerm → Json → Prop where
  | named {name : String} : TypeForm (.named name) (text name)
  | pointer {mode : PointerMode} {pointee : TypeTerm} {target value : Json} {kind : Option Json}
      (modeForm : Defaulted .safe ModeForm mode kind) (pointeeForm : TypeForm pointee target)
      (object : ObjectOf typeKeys [("ptr", some target), ("kind", kind)] value) :
      TypeForm (.pointer mode pointee) value
  | array {element : TypeTerm} {capacity : Nat} {items size value : Json}
      (elementForm : TypeForm element items)
      (capacityForm : NaturalForm capacityBound capacity size)
      (object : ObjectOf typeKeys [("array", some items), ("capacity", some size)] value) :
      TypeForm (.array element capacity) value
  | function {signature : SignatureTerm} {params results : Option Json} {record value : Json}
      (signatureForm : SignatureForm signature params results)
      (inner : ObjectOf [] [("params", params), ("results", results)] record)
      (object : ObjectOf typeKeys [("func", some record)] value) :
      TypeForm (.function signature) value

inductive FieldForm : FieldTerm → Json → Prop where
  | field {name : String} {type : TypeTerm} {label : Option Json} {term value : Json}
      (nameForm : Defaulted "" TextForm name label) (typeForm : TypeForm type term)
      (object : ObjectOf [] [("name", label), ("type", some term)] value) :
      FieldForm ⟨name, type⟩ value

/-- A signature is two fields of the record that it belongs to. -/
inductive SignatureForm : SignatureTerm → Option Json → Option Json → Prop where
  | signature {params results : List FieldTerm} {given taken : Option Json}
      (paramsForm : Defaulted [] (ListForm FieldForm) params given)
      (resultsForm : Defaulted [] (ListForm FieldForm) results taken) :
      SignatureForm ⟨params, results⟩ given taken

end

theorem mode_reads (limit : Nat) :
    Reads limit ModeForm (word? Json.isNull pointerMode?) := by
  rintro mode _ rfl _
  rcases mode with _ | _ | (_ | _) <;> rfl

section Signatures

variable {limit : Nat} {typeTerm : Json → Option TypeTerm}

theorem field_reads (types : Reads limit TypeForm typeTerm) :
    Reads limit FieldForm (fieldTerm? typeTerm) := by
  intro _ value form shallow
  cases form with
  | @field name type label term _ nameForm typeForm object =>
      have found : record ["name", "type"] value = some [label, some term] :=
        object.record (by simp)
      have inside := object.inside (Nat.le_of_lt shallow)
      have nameRead := (Json.text_reads limit).withDefault nameForm
        (inside ("name", label) (by simp))
      have typeRead := types.required typeForm (inside ("type", term) (by simp))
      simp [fieldTerm?, found, nameRead, typeRead]

theorem signature_reads (types : Reads limit TypeForm typeTerm) {signature : SignatureTerm}
    {params results : Option Json} (form : SignatureForm signature params results)
    (paramsInside : ∀ json ∈ params, json.nesting < limit)
    (resultsInside : ∀ json ∈ results, json.nesting < limit) :
    signatureOf? typeTerm params results = some signature := by
  obtain ⟨paramsForm, resultsForm⟩ := form
  have paramsRead := (field_reads types).list.withDefault paramsForm paramsInside
  have resultsRead := (field_reads types).list.withDefault resultsForm resultsInside
  simp [signatureOf?, paramsRead, resultsRead]

end Signatures

/-! The three forms of types that are objects. -/

section TypeObjects

variable {typeTerm : Json → Option TypeTerm} {value : Json}

theorem typeTermWithin?_object {fields : List (String × Option Json)}
    (object : ObjectOf typeKeys fields value) (levels : Nat) :
    typeTermWithin? (levels + 1) value =
      (pointerTerm? (typeTermWithin? levels) value <|>
        arrayTerm? (typeTermWithin? levels) value <|>
        functionTerm? (typeTermWithin? levels) value) := by
  cases object
  rfl

theorem pointerTerm?_absent (absent : keyed ["ptr", "kind"] value = some [none, none]) :
    pointerTerm? typeTerm value = none := by
  simp [pointerTerm?, absent, withDefault, required]

theorem arrayTerm?_absent (absent : keyed ["array", "capacity"] value = some [none, none]) :
    arrayTerm? typeTerm value = none := by
  simp [arrayTerm?, absent, required]

end TypeObjects

/-- Each level of a type is nested in an object of the level above. -/
theorem type_reads (levels : Nat) : Reads levels TypeForm (typeTermWithin? levels) := by
  induction levels with
  | zero =>
      intro type value _ shallow
      cases shallow
  | succ levels induction =>
      intro type value form shallow
      cases form with
      | named => rfl
      | @pointer mode pointee target _ kind modeForm pointeeForm object =>
          have found : keyed ["ptr", "kind"] value = some [some target, kind] :=
            object.keyed (by simp)
          have inside := object.inside (Nat.le_of_lt_succ shallow)
          have pointeeRead := induction.required pointeeForm (inside ("ptr", target) (by simp))
          have modeRead := (mode_reads levels).withDefault modeForm
            (inside ("kind", kind) (by simp))
          rw [typeTermWithin?_object object]
          simp [pointerTerm?, found, pointeeRead, modeRead]
      | @array element capacity items size _ elementForm capacityForm object =>
          have absent : keyed ["ptr", "kind"] value = some [none, none] :=
            object.keyed_excluded (by simp [typeKeys]) (by simp)
          have found : keyed ["array", "capacity"] value = some [some items, some size] :=
            object.keyed (by simp)
          have inside := object.inside (Nat.le_of_lt_succ shallow)
          have elementRead := induction.required elementForm (inside ("array", items) (by simp))
          have capacityRead := (Json.natural_reads levels capacityBound).required capacityForm
            (inside ("capacity", size) (by simp))
          rw [typeTermWithin?_object object, pointerTerm?_absent absent]
          simp [arrayTerm?, found, elementRead, capacityRead]
      | @function signature params results inner _ signatureForm innerObject object =>
          have noPointer : keyed ["ptr", "kind"] value = some [none, none] :=
            object.keyed_excluded (by simp [typeKeys]) (by simp)
          have noArray : keyed ["array", "capacity"] value = some [none, none] :=
            object.keyed_excluded (by simp [typeKeys]) (by simp)
          have found : keyed ["func"] value = some [some inner] := object.keyed (by simp)
          have innerFound : record ["params", "results"] inner = some [params, results] :=
            innerObject.record (by simp)
          have innerShallow := object.inside (Nat.le_of_lt_succ shallow) ("func", inner) (by simp)
            inner rfl
          have inside := innerObject.inside (Nat.le_of_lt innerShallow)
          have signatureRead := signature_reads induction signatureForm
            (inside ("params", params) (by simp)) (inside ("results", results) (by simp))
          rw [typeTermWithin?_object object, pointerTerm?_absent noPointer,
            arrayTerm?_absent noArray]
          simp [functionTerm?, found, required, signatureTerm?, innerFound, signatureRead]

theorem typeTerm_reads : Reads nestingLimit TypeForm typeTerm? := type_reads nestingLimit

inductive PrototypeForm : PrototypeTerm → Json → Prop where
  | prototype {name : String} {signature : SignatureTerm} {params results : Option Json}
      {value : Json} (signatureForm : SignatureForm signature params results)
      (object : ObjectOf [] [("name", some (text name)), ("params", params), ("results", results)]
        value) :
      PrototypeForm ⟨name, signature⟩ value

inductive TypeEntryForm : TypeEntry → Json → Prop where
  | struct {name : String} {fields : List FieldTerm} {items : Option Json} {value : Json}
      (fieldsForm : Defaulted [] (ListForm FieldForm) fields items)
      (object : ObjectOf [] [("kind", some (text "struct")), ("name", some (text name)),
        ("fields", items)] value) :
      TypeEntryForm (.struct name fields) value
  | trait {name : String} {prototypes : List PrototypeTerm} {items : Option Json} {value : Json}
      (prototypesForm : Defaulted [] (ListForm PrototypeForm) prototypes items)
      (object : ObjectOf [] [("kind", some (text "trait")), ("name", some (text name)),
        ("prototypes", items)] value) :
      TypeEntryForm (.trait name prototypes) value
  | aliasOf {name : String} {target : TypeTerm} {term value : Json}
      (targetForm : TypeForm target term)
      (object : ObjectOf [] [("kind", some (text "alias")), ("name", some (text name)),
        ("target", some term)] value) :
      TypeEntryForm (.aliasOf name target) value

theorem prototype_reads : Reads nestingLimit PrototypeForm prototypeTerm? := by
  intro _ value form shallow
  cases form with
  | @prototype name signature params results _ signatureForm object =>
      have found : keyed ["name", "params", "results"] value =
          some [some (text name), params, results] := object.keyed (by simp)
      have inside := object.inside (Nat.le_of_lt shallow)
      have signatureRead := signature_reads typeTerm_reads signatureForm
        (inside ("params", params) (by simp)) (inside ("results", results) (by simp))
      simp [prototypeTerm?, found, signatureRead]

theorem typeEntry_reads : Reads nestingLimit TypeEntryForm typeEntry? := by
  intro entry value form shallow
  cases form with
  | @struct name fields items _ fieldsForm object =>
      obtain ⟨rest, tagFound, others⟩ := object.tagged (by simp)
      have found : record ["name", "fields"] rest = some [some (text name), items] :=
        others.record (by simp)
      have inside := object.inside (Nat.le_of_lt shallow)
      have fieldsRead := (field_reads typeTerm_reads).list.withDefault fieldsForm
        (inside ("fields", items) (by simp))
      simp [tagFound, typeEntry?, structEntry?, found, fieldsRead]
  | @trait name prototypes items _ prototypesForm object =>
      obtain ⟨rest, tagFound, others⟩ := object.tagged (by simp)
      have found : record ["name", "prototypes"] rest = some [some (text name), items] :=
        others.record (by simp)
      have inside := object.inside (Nat.le_of_lt shallow)
      have prototypesRead := prototype_reads.list.withDefault prototypesForm
        (inside ("prototypes", items) (by simp))
      simp [tagFound, typeEntry?, traitEntry?, found, prototypesRead]
  | @aliasOf name target term _ targetForm object =>
      obtain ⟨rest, tagFound, others⟩ := object.tagged (by simp)
      have found : record ["name", "target"] rest = some [some (text name), some term] :=
        others.record (by simp)
      have inside := object.inside (Nat.le_of_lt shallow)
      have targetRead := typeTerm_reads.required targetForm (inside ("target", term) (by simp))
      simp [tagFound, typeEntry?, aliasEntry?, found, targetRead]

def NumberForm : Nat → Json → Prop := NaturalForm numberBound

inductive InstructionForm : InstructionTerm → Json → Prop where
  | compute {operator : Operator} {target left right : RegisterNumber} {save source value : Json}
      (targetForm : NumberForm target save)
      (operandsForm : ListForm NumberForm [left, right] source)
      (object : ObjectOf [] [("op", some (text operator.word)), ("save", some save),
        ("source", some source)] value) :
      InstructionForm (.compute operator target left right) value
  | branch {target : BlockNumber} {test : Comparison} {left right : RegisterNumber}
      {place operands value : Json} (targetForm : NumberForm target place)
      (operandsForm : ListForm NumberForm [left, right] operands)
      (object : ObjectOf [] [("op", some (text "br")), ("to", some place),
        ("cond", some (text test.word)), ("operands", some operands)] value) :
      InstructionForm (.branch target test left right) value
  | jump {target : BlockNumber} {place value : Json} (targetForm : NumberForm target place)
      (object : ObjectOf [] [("op", some (text "jmp")), ("to", some place)] value) :
      InstructionForm (.jump target) value
  | invoke {callee : String} {args results : List RegisterNumber} {given taken : Option Json}
      {value : Json} (argsForm : Defaulted [] (ListForm NumberForm) args given)
      (resultsForm : Defaulted [] (ListForm NumberForm) results taken)
      (object : ObjectOf [] [("op", some (text "invoke")), ("callee", some (text callee)),
        ("args", given), ("results", taken)] value) :
      InstructionForm (.invoke callee args results) value
  | leave {value : Json} (object : ObjectOf [] [("op", some (text "ret"))] value) :
      InstructionForm .leave value

/-- A body is two fields of the callee that it belongs to. -/
inductive BodyForm : BodyTerm → Option Json → Option Json → Prop where
  | body {registers : List TypeTerm} {blocks : List (List InstructionTerm)}
      {types lists : Option Json}
      (registersForm : Defaulted [] (ListForm TypeForm) registers types)
      (blocksForm : Defaulted [] (ListForm (ListForm InstructionForm)) blocks lists) :
      BodyForm ⟨registers, blocks⟩ types lists

/-- A callee that has a body, under the tag of its kind. -/
def BodiedForm (kind name : String) (signature : SignatureTerm) (body : BodyTerm)
    (value : Json) : Prop :=
  ∃ params results registers blocks, SignatureForm signature params results ∧
    BodyForm body registers blocks ∧
    ObjectOf [] [("kind", some (text kind)), ("name", some (text name)), ("params", params),
      ("results", results), ("registers", registers), ("blocks", blocks)] value

inductive CalleeForm : CalleeEntry → Json → Prop where
  | native {name symbol : String} {signature : SignatureTerm} {params results : Option Json}
      {value : Json} (signatureForm : SignatureForm signature params results)
      (object : ObjectOf [] [("kind", some (text "native")), ("name", some (text name)),
        ("symbol", some (text symbol)), ("params", params), ("results", results)] value) :
      CalleeForm (.native name symbol signature) value
  | inlined {name : String} {signature : SignatureTerm} {body : BodyTerm} {value : Json}
      (form : BodiedForm "inline" name signature body value) :
      CalleeForm (.inlined name signature body) value
  | compiled {name : String} {signature : SignatureTerm} {body : BodyTerm} {value : Json}
      (form : BodiedForm "impl" name signature body value) :
      CalleeForm (.compiled name signature body) value

theorem number_reads (limit : Nat) : Reads limit NumberForm number? :=
  Json.natural_reads limit numberBound

theorem operands_read {limit : Nat} {left right : RegisterNumber} {json : Json}
    (form : ListForm NumberForm [left, right] json)
    (inside : ∀ item ∈ some json, item.nesting < limit) :
    required operands? (some json) = some (left, right) := by
  have read : numbers? json = some [left, right] :=
    (number_reads limit).list form (inside json rfl)
  simp [required, operands?, read]

theorem test_read (test : Comparison) :
    required test? (some (text test.word)) = some test := by
  cases test <;> rfl

theorem operation_compute (operator : Operator) :
    operation? (text operator.word) = some (compute? operator) := by
  cases operator <;> rfl

theorem instruction_reads : Reads nestingLimit InstructionForm instruction? := by
  intro instruction value form shallow
  cases form with
  | @compute operator target left right save source _ targetForm operandsForm object =>
      obtain ⟨rest, tagFound, others⟩ := object.tagged (by simp)
      have found : record ["save", "source"] rest = some [some save, some source] :=
        others.record (by simp)
      have inside := object.inside (Nat.le_of_lt shallow)
      have targetRead := (number_reads _).required targetForm (inside ("save", save) (by simp))
      have operandsRead := operands_read operandsForm (inside ("source", source) (by simp))
      simp [instruction?, tagFound, operation_compute, compute?, found, targetRead, operandsRead]
  | @branch target test left right place operands _ targetForm operandsForm object =>
      obtain ⟨rest, tagFound, others⟩ := object.tagged (by simp)
      have operation : operation? (text "br") = some branch? := rfl
      have found : record ["to", "cond", "operands"] rest =
          some [some place, some (text test.word), some operands] := others.record (by simp)
      have inside := object.inside (Nat.le_of_lt shallow)
      have targetRead := (number_reads _).required targetForm (inside ("to", place) (by simp))
      have operandsRead := operands_read operandsForm (inside ("operands", operands) (by simp))
      simp [instruction?, tagFound, operation, branch?, found, targetRead, test_read,
        operandsRead]
  | @jump target place _ targetForm object =>
      obtain ⟨rest, tagFound, others⟩ := object.tagged (by simp)
      have operation : operation? (text "jmp") = some jump? := rfl
      have found : record ["to"] rest = some [some place] := others.record (by simp)
      have inside := object.inside (Nat.le_of_lt shallow)
      have targetRead := (number_reads _).required targetForm (inside ("to", place) (by simp))
      simp [instruction?, tagFound, operation, jump?, found, targetRead]
  | @invoke callee args results given taken _ argsForm resultsForm object =>
      obtain ⟨rest, tagFound, others⟩ := object.tagged (by simp)
      have operation : operation? (text "invoke") = some invoke? := rfl
      have found : record ["callee", "args", "results"] rest =
          some [some (text callee), given, taken] := others.record (by simp)
      have inside := object.inside (Nat.le_of_lt shallow)
      have argsRead : withDefault [] numbers? given = some args :=
        (number_reads _).list.withDefault argsForm (inside ("args", given) (by simp))
      have resultsRead : withDefault [] numbers? taken = some results :=
        (number_reads _).list.withDefault resultsForm (inside ("results", taken) (by simp))
      simp [instruction?, tagFound, operation, invoke?, found, argsRead, resultsRead]
  | leave object =>
      obtain ⟨rest, tagFound, others⟩ := object.tagged (by simp)
      have operation : operation? (text "ret") = some leave? := rfl
      have found : record [] rest = some [] := others.record (by simp)
      simp [instruction?, tagFound, operation, leave?, found]

theorem body_read {body : BodyTerm} {registers blocks : Option Json}
    (form : BodyForm body registers blocks)
    (registersInside : ∀ json ∈ registers, json.nesting < nestingLimit)
    (blocksInside : ∀ json ∈ blocks, json.nesting < nestingLimit) :
    bodyOf? registers blocks = some body := by
  obtain ⟨registersForm, blocksForm⟩ := form
  have registersRead := typeTerm_reads.list.withDefault registersForm registersInside
  have blocksRead := instruction_reads.list.list.withDefault blocksForm blocksInside
  simp [bodyOf?, registersRead, blocksRead]

theorem bodied_read {kind name : String} {signature : SignatureTerm} {body : BodyTerm}
    {value : Json} (form : BodiedForm kind name signature body value)
    (shallow : value.nesting < nestingLimit)
    (make : String → SignatureTerm → BodyTerm → CalleeEntry) :
    ∃ rest, tagged "kind" value = some (text kind, rest) ∧
      bodiedEntry? make rest = some (make name signature body) := by
  obtain ⟨params, results, registers, blocks, signatureForm, bodyForm, object⟩ := form
  obtain ⟨rest, tagFound, others⟩ := object.tagged (by simp)
  have found : keyed ["name", "params", "results", "registers", "blocks"] rest =
      some [some (text name), params, results, registers, blocks] := others.keyed (by simp)
  have inside := object.inside (Nat.le_of_lt shallow)
  have signatureRead := signature_reads typeTerm_reads signatureForm
    (inside ("params", params) (by simp)) (inside ("results", results) (by simp))
  have bodyRead := body_read bodyForm (inside ("registers", registers) (by simp))
    (inside ("blocks", blocks) (by simp))
  refine ⟨rest, tagFound, ?_⟩
  simp [found, bodiedEntry?, signatureRead, bodyRead]

theorem callee_reads : Reads nestingLimit CalleeForm calleeEntry? := by
  intro entry value form shallow
  cases form with
  | @native name symbol signature params results _ signatureForm object =>
      obtain ⟨rest, tagFound, others⟩ := object.tagged (by simp)
      have found : keyed ["name", "symbol", "params", "results"] rest =
          some [some (text name), some (text symbol), params, results] := others.keyed (by simp)
      have inside := object.inside (Nat.le_of_lt shallow)
      have signatureRead := signature_reads typeTerm_reads signatureForm
        (inside ("params", params) (by simp)) (inside ("results", results) (by simp))
      simp [tagFound, calleeEntry?, nativeEntry?, found, signatureRead]
  | inlined form =>
      obtain ⟨rest, tagFound, read⟩ := bodied_read form shallow .inlined
      simp [tagFound, calleeEntry?, read]
  | compiled form =>
      obtain ⟨rest, tagFound, read⟩ := bodied_read form shallow .compiled
      simp [tagFound, calleeEntry?, read]

def SizeForm (size : PointerSize) (value : Json) : Prop :=
  value = .number (.integer false size.bytes)

inductive TargetForm : PointerSize → Json → Prop where
  | target {size : PointerSize} {bytes : Option Json} {value : Json}
      (sizeForm : Defaulted default SizeForm size bytes)
      (object : ObjectOf [] [("pointer_width", bytes)] value) : TargetForm size value

/-- A description in object form. -/
inductive Form : Description → Json → Prop where
  | description {name : String} {size : PointerSize} {types : List TypeEntry}
      {callees : List CalleeEntry} {target typeItems calleeItems : Option Json} {value : Json}
      (targetForm : Defaulted default TargetForm size target)
      (typesForm : Defaulted [] (ListForm TypeEntryForm) types typeItems)
      (calleesForm : Defaulted [] (ListForm CalleeForm) callees calleeItems)
      (object : ObjectOf [] [("name", some (text name)), ("target", target),
        ("types", typeItems), ("callees", calleeItems)] value) :
      Form ⟨name, size, types, callees⟩ value

/-- A text that renders a description, within the limit of nesting. -/
def Renders (description : Description) (text : String) : Prop :=
  ∃ value : Json, Form description value ∧ value.SpelledBy text ∧ value.nesting ≤ nestingLimit

theorem hasTextKeys_of_sound {value : Json} (sound : value.isSound = true) :
    hasTextKeys value = true := by
  cases value with
  | object members =>
      rw [Json.isSound] at sound
      rw [hasTextKeys, List.all_eq_true]
      intro member isMember
      exact (Json.sound_of_member sound isMember).1
  | _ => rfl

theorem size_read {size : PointerSize} {bytes : Option Json}
    (form : Defaulted default SizeForm size bytes) :
    withDefault default pointerSize? bytes = some size := by
  cases form with
  | omitted => rfl
  | given isForm =>
      subst isForm
      cases size <;> rfl

theorem target_read {size : PointerSize} {target : Option Json}
    (form : Defaulted default TargetForm size target)
    (sound : ∀ json ∈ target, json.isSound = true) :
    withDefault default target? target = some size := by
  cases form with
  | omitted => rfl
  | @given _ value isForm =>
      cases isForm with
      | @target bytes _ sizeForm object =>
          have found : record ["pointer_width"] value = some [bytes] := object.record (by simp)
          have textKeys := hasTextKeys_of_sound (sound value rfl)
          change target? value = some size
          simp [target?, textKeys, found, size_read sizeForm]

theorem entries_read {form : α → Json → Prop} {decode : Json → Option α}
    (reads : Reads nestingLimit form decode) {values : List α} {json : Option Json}
    (isForm : Defaulted [] (ListForm form) values json)
    (sound : ∀ item ∈ json, item.isSound = true)
    (inside : ∀ item ∈ json, item.nesting < nestingLimit) :
    withDefault [] (entries? decode) json = some values := by
  cases isForm with
  | omitted => rfl
  | @given _ value isForm =>
      have listed := reads.list isForm (inside value rfl)
      simp [withDefault, entries?, sound value rfl, inside value rfl, listed]

theorem ofJson?_form {description : Description} {value : Json} (form : Form description value)
    (sound : value.isSound = true) (shallow : value.nesting ≤ nestingLimit) :
    ofJson? value = some description := by
  cases form with
  | @description name size types callees target typeItems calleeItems _ targetForm typesForm
      calleesForm object =>
      have found : record ["name", "target", "types", "callees"] value =
          some [some (text name), target, typeItems, calleeItems] := object.record (by simp)
      have inside := object.inside shallow
      have allSound := object.sound sound
      have targetRead := target_read targetForm (allSound ("target", target) (by simp))
      have typesRead := entries_read typeEntry_reads typesForm
        (allSound ("types", typeItems) (by simp)) (inside ("types", typeItems) (by simp))
      have calleesRead := entries_read callee_reads calleesForm
        (allSound ("callees", calleeItems) (by simp)) (inside ("callees", calleeItems) (by simp))
      simp [ofJson?, hasTextKeys_of_sound sound, found, targetRead, typesRead, calleesRead]

/-- A text that renders a description is read as this description, so that the
program is built from it.  A given size of pointers only takes the place of the
one that is described. -/
theorem rendering_is_read {description : Description} {text : String}
    (renders : Renders description text) :
    ofText? text = some description ∧ Program.ofText text none = description.build ∧
      ∀ size, Program.ofText text (some size) =
        Description.build { description with pointerSize := size } := by
  obtain ⟨value, form, spelled, shallow⟩ := renders
  have read : ofText? text = some description := by
    rw [ofText?, Json.ofText?_of_spelled spelled]
    exact ofJson?_form form (Json.isSound_of_spelled spelled) shallow
  refine ⟨read, ?_, ?_⟩
  · rw [Program.ofText, read]
    rfl
  · intro size
    rw [Program.ofText, read]
    rfl

/-- A struct with a pointer that may be null, and a callee that doubles a
number. -/
def boxes : Description :=
  ⟨"m", .eight, [.struct "Box" [⟨"", .pointer (.nullable true) (.named "i32")⟩]],
    [.compiled "twice" ⟨[], []⟩ ⟨[.named "i32"], [[.compute .plus 0 0 0, .leave]]⟩]⟩

/-- Tags stand last, defaults are both given and left out, and there is a note
that means nothing. -/
def boxesValue : Json :=
  let zero : Json := .number (.integer false 0)
  .object [
    ⟨some "name", text "m"⟩,
    ⟨some "types", .array [.object [
      ⟨some "note", .array [.null, .number (.integer true 1)]⟩,
      ⟨some "fields", .array [.object [⟨some "type",
        .object [⟨some "kind", text "checked"⟩, ⟨some "ptr", text "i32"⟩]⟩]]⟩,
      ⟨some "name", text "Box"⟩,
      ⟨some "kind", text "struct"⟩]]⟩,
    ⟨some "callees", .array [.object [
      ⟨some "blocks", .array [.array [
        .object [⟨some "source", .array [zero, zero]⟩, ⟨some "save", zero⟩,
          ⟨some "op", text "add"⟩],
        .object [⟨some "op", text "ret"⟩]]]⟩,
      ⟨some "registers", .array [text "i32"]⟩,
      ⟨some "results", .array []⟩,
      ⟨some "name", text "twice"⟩,
      ⟨some "kind", text "impl"⟩]]⟩]

/-- The text of the value, with an escape in its first key and with blanks. -/
def boxesText : String :=
  "\x7b\"n\\u0061me\": " ++
    String.ofList ((boxesValue.tokens.drop 3).flatMap Json.Token.plain) ++ "\n"

theorem boxes_form : Form boxes boxesValue := by
  have type : TypeForm (.pointer (.nullable true) (.named "i32"))
      (.object [⟨some "kind", text "checked"⟩, ⟨some "ptr", text "i32"⟩]) :=
    .pointer (.given rfl) .named (@ObjectOf.object _ _ _ [] (.swap _ _ _) nofun)
  have field : FieldForm ⟨"", .pointer (.nullable true) (.named "i32")⟩ _ :=
    .field .omitted type (@ObjectOf.object _ _ _ [] (.refl _) nofun)
  have box : TypeEntryForm (.struct "Box" [⟨"", .pointer (.nullable true) (.named "i32")⟩]) _ :=
    .struct (.given (.cons field .nil))
      (@ObjectOf.object _ _ _ [⟨some "note", .array [.null, .number (.integer true 1)]⟩]
        (List.reverse_perm _) (by simp))
  have zero : NumberForm 0 (.number (.integer false 0)) := ⟨by decide, rfl⟩
  have add : InstructionForm (.compute .plus 0 0 0) _ :=
    .compute zero (.cons zero (.cons zero .nil))
      (@ObjectOf.object _ _ _ [] (List.reverse_perm _) nofun)
  have leave : InstructionForm .leave _ := .leave (@ObjectOf.object _ _ _ [] (.refl _) nofun)
  have twice : CalleeForm
      (.compiled "twice" ⟨[], []⟩ ⟨[.named "i32"], [[.compute .plus 0 0 0, .leave]]⟩) _ :=
    .compiled ⟨none, some (.array []), _, _, .signature .omitted (.given .nil),
      .body (.given (.cons .named .nil)) (.given (.cons (.cons add (.cons leave .nil)) .nil)),
      @ObjectOf.object _ _ _ [] (List.reverse_perm _) nofun⟩
  exact .description .omitted (.given (.cons box .nil)) (.given (.cons twice .nil))
    (@ObjectOf.object _ _ _ [] (.refl _) nofun)

section Spelling

open Json

theorem boxes_spelled : boxesValue.SpelledBy boxesText := by
  have letter : CharText 'a' ['\\', 'u', '0', '0', '6', '1'] :=
    .code (@HexText.digits 0 0 6 1 _ _ _ _ ⟨by decide, .inl rfl⟩ ⟨by decide, .inl rfl⟩
      ⟨by decide, .inl rfl⟩ ⟨by decide, .inl rfl⟩)
  have inside : StringText ['n', 'a', 'm', 'e'] ['n', '\\', 'u', '0', '0', '6', '1', 'm', 'e'] :=
    .cons (.plain (by decide) (by decide) (by decide))
      (.cons letter (@stringText_plain ['m', 'e'] (by decide)))
  have key : TokenText (.string (some "name")) "\"n\\u0061me\"".toList :=
    @TokenText.string "name" _ inside
  have rest := @tokensText_plain (boxesValue.tokens.drop 3) (by decide)
  have spelled := TokensText.token .openObject (.token key (.token .colon
    (.blank (by decide : ' ' ∈ blanks) (rest.append (.blank (by decide : '\n' ∈ blanks) .nil)))))
  have sameTokens : boxesValue.tokens =
      .openObject :: .string (some "name") :: .colon :: (boxesValue.tokens.drop 3 ++ []) := by
    decide
  have sameText (later : List Char) :
      ("\x7b\"n\\u0061me\": " ++ String.ofList later ++ "\n").toList =
        ['\x7b'] ++ ("\"n\\u0061me\"".toList ++ ([':'] ++ ' ' :: (later ++ ['\n']))) := by
    simp only [String.toList_append, String.toList_ofList, List.append_assoc]
    rfl
  rw [← sameText, ← sameTokens] at spelled
  exact spelled

end Spelling

theorem boxes_are_read :
    Renders boxes boxesText ∧ ofText? boxesText = some boxes ∧
      Program.ofText boxesText none = boxes.build ∧
      ∀ size, Program.ofText boxesText (some size) =
        Description.build { boxes with pointerSize := size } := by
  have renders : Renders boxes boxesText := ⟨boxesValue, boxes_form, boxes_spelled, by decide⟩
  exact ⟨renders, rendering_is_read renders⟩

end CBackend.Description
