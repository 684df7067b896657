import CBackend.Proofs.Lowering.Legibility
import CBackend.Proofs.Lowering.TypeNames

/-!
# Generated definitions are closed

Every region of a definition is laid out in the same way: declarations,
copies of arguments, the code of a body and an ending.  What the first two
declare is in sight of everything after them, and an expansion sees in
addition what is declared around it.  So regions are closed one by one, from
the outside in, and what holds of them holds of the text that is read back.
-/

namespace CBackend

namespace C.Naming

theorem resolve_here {names : List String} {name : String} (owner : Owner)
    (member : name ∈ names) (around : Naming) :
    resolve ((owner, names) :: around) name = some owner := by
  simp [resolve, member]

theorem resolve_outside {names : List String} {name : String} (owner : Owner)
    (absent : name ∉ names) (around : Naming) :
    resolve ((owner, names) :: around) name = resolve around name := by
  simp [resolve, absent]

end C.Naming

namespace Lowering

open C (Definition Item Owner Naming)

/-- Declarations before items that declare nothing are in sight of all of
them. -/
theorem names_in_front {declarations others front back : List Item} {item : Item}
    {names : List String} (declares : DeclaresNames declarations names)
    (silent : ∀ other ∈ others, other.declared? = none)
    (same : declarations ++ others = front ++ item :: back)
    (plain : item.declared? = none) :
    front.filterMap Item.declared? = names ∧ item ∈ others := by
  obtain ⟨entries, rfl, rfl⟩ := declares
  induction entries generalizing front with
  | nil =>
      rw [List.map_nil, List.nil_append] at same
      constructor
      · apply List.filterMap_eq_nil_iff.mpr
        intro other member
        apply silent
        rw [same]
        exact List.mem_append_left _ member
      · rw [same]
        exact List.mem_append_right _ List.mem_cons_self
  | cons entry entries induction =>
      cases front with
      | nil =>
          rw [List.map_cons, List.cons_append, List.nil_append] at same
          rw [← (List.cons.inj same).1] at plain
          cases plain
      | cons first front =>
          rw [List.map_cons, List.cons_append, List.cons_append] at same
          obtain ⟨here, later⟩ := List.cons.inj same
          obtain ⟨names, member⟩ := induction later
          refine ⟨?_, member⟩
          rw [← here, List.map_cons, ← names]
          rfl

/-- A statement without a goto or call, all of whose variables are in sight. -/
def Copies (naming : Naming) (item : Item) : Prop :=
  ∃ statement, item = .statement statement ∧ item.goto? = none ∧
    item.called? = none ∧ ∀ mentioned ∈ statement.variables,
      naming.resolve mentioned.text = some mentioned.home

/-- The registers of an owner and all temporaries are in sight, and nothing
else is but parameters and generated names. -/
structure Sees (definition : Definition) (stored : List String) (owner : Owner)
    (function : BodiedFunction) (naming : Naming) : Prop where
  registers : ∀ number < function.body.registers.length,
    naming.resolve (C.Variable.register owner number).text = some owner
  temporaries : ∀ callee ∈ stored,
    naming.resolve (C.Variable.result callee).text = some .function
  origin : ∀ name home, naming.resolve name = some home →
    name ∈ definition.paramNames ∨ ∃ generated : C.Variable,
      generated.isGenerated ∧ generated.text = name ∧ generated.home = home

/-- How every region of a definition is laid out.  `naming` is what is
declared in the region and around it. -/
inductive Laid (program : Program) (definition : Definition)
    (stored : List String) (around : Naming) (role : Role) : List Item → Prop where
  | mk {names : List String} {dormant : List CalleeNumber} {before after : Usage}
      {declarations copies code ending : List Item} {naming : Naming}
      (sight : naming =
        (role.owner, definition.namesAfter declarations role.owner) :: around)
      (declares : DeclaresNames declarations names)
      (basics : DeclaresBasics declarations)
      (sees : Sees definition stored role.owner role.function naming)
      (distinct : (definition.namesAfter declarations role.owner).Nodup)
      (copied : ∀ item ∈ copies, Copies naming item)
      (entering : C.itemsMentions copies = role.entering)
      (rank : role.owner.rank ≤ before.expansions)
      (kept : after.keptResults ⊆ stored)
      (emitted : Emits program dormant role.activation before
        role.function.body.lines code after)
      (trailing : ∀ item ∈ ending, Copies naming item ∨
        ∃ number, role.owner = .expansion number ∧ item = .emptyLabel (.finish number))
      (leaving : C.itemsMentions ending = role.ending)
      (endingLabels :
        (List.range role.function.body.blocks.length).map (.block role.owner) ++
          ending.filterMap Item.label? = role.function.body.labels role.owner)
      (continues : ∀ number, role.function.body.lines.getLast? = some (.start number) →
        Continues ending) :
      Laid program definition stored around role
        (declarations ++ (copies ++ (code ++ ending)))

theorem DeclaresNames.filterMap_declared? {items : List Item} {names : List String}
    (declares : DeclaresNames items names) :
    items.filterMap Item.declared? = names := by
  obtain ⟨declarations, rfl, rfl⟩ := declares
  rw [List.filterMap_map]
  exact congrFun List.filterMap_eq_map declarations

/-- Declarations are nothing but declarations. -/
theorem DeclaresNames.filterMap_eq_nil {items : List Item} {names : List String}
    (declares : DeclaresNames items names) {view : Item → Option α}
    (unseen : ∀ declaration, view (.declare declaration) = none) :
    items.filterMap view = [] := by
  obtain ⟨declarations, rfl, _⟩ := declares
  apply List.filterMap_eq_nil_iff.mpr
  intro item member
  obtain ⟨declaration, _, rfl⟩ := List.mem_map.mp member
  exact unseen declaration

theorem DeclaresNames.itemsMentions {items : List Item} {names : List String}
    (declares : DeclaresNames items names) : C.itemsMentions items = [] := by
  rw [C.itemsMentions, declares.filterMap_eq_nil fun _ => rfl]
  rfl

theorem namesAfter_congr {left right : List Item} (definition : Definition)
    (same : left.filterMap Item.declared? = right.filterMap Item.declared?)
    (owner : Owner) :
    definition.namesAfter left owner = definition.namesAfter right owner := by
  cases owner with
  | function => rw [Definition.namesAfter, Definition.namesAfter, same]
  | expansion _ => exact same

section Laid

variable {program : Program} {definition : Definition} {stored : List String}
  {around : Naming} {owner : Owner} {function : BodiedFunction} {role : Role}

/-- What a region shows, apart from its declarations and copies. -/
theorem region_filterMap {declarations copies code ending : List Item}
    {names : List String} {naming : Naming} {view : Item → Option α}
    (declares : DeclaresNames declarations names)
    (copied : ∀ item ∈ copies, Copies naming item)
    (noDeclaration : ∀ declaration, view (.declare declaration) = none)
    (noCopy : ∀ item, Copies naming item → view item = none) :
    (declarations ++ (copies ++ (code ++ ending))).filterMap view =
      code.filterMap view ++ ending.filterMap view := by
  have noCopies : copies.filterMap view = [] := by
    apply List.filterMap_eq_nil_iff.mpr
    intro item member
    exact noCopy item (copied item member)
  rw [List.filterMap_append, List.filterMap_append, List.filterMap_append,
    declares.filterMap_eq_nil noDeclaration, noCopies]
  rfl

/-- An ending is made of copies and a label. -/
theorem trailing_filterMap {ending : List Item} {naming : Naming}
    {view : Item → Option α}
    (trailing : ∀ item ∈ ending, Copies naming item ∨
      ∃ number, owner = .expansion number ∧ item = .emptyLabel (.finish number))
    (noCopy : ∀ item, Copies naming item → view item = none)
    (noLabel : ∀ number, view (.emptyLabel (.finish number)) = none) :
    ending.filterMap view = [] := by
  apply List.filterMap_eq_nil_iff.mpr
  intro item member
  rcases trailing item member with copy | ⟨number, _, rfl⟩
  · exact noCopy item copy
  · exact noLabel number

theorem Copies.label? {naming : Naming} {item : Item} (copies : Copies naming item) :
    item.label? = none := by
  obtain ⟨statement, rfl, _⟩ := copies
  rfl

theorem Copies.block? {naming : Naming} {item : Item} (copies : Copies naming item) :
    item.block? = none := by
  obtain ⟨statement, rfl, _⟩ := copies
  rfl

theorem Copies.declared? {naming : Naming} {item : Item}
    (copies : Copies naming item) : item.declared? = none := by
  obtain ⟨statement, rfl, _⟩ := copies
  rfl

theorem Copies.goto? {naming : Naming} {item : Item} (copies : Copies naming item) :
    item.goto? = none := by
  obtain ⟨_, _, none, _⟩ := copies
  exact none

theorem Copies.called? {naming : Naming} {item : Item}
    (copies : Copies naming item) : item.called? = none := by
  obtain ⟨_, _, _, none, _⟩ := copies
  exact none

theorem code_labels {dormant : List CalleeNumber} {before after : Usage}
    {code : List Item}
    (emitted : Emits program dormant (activationOf function owner) before
      function.body.lines code after) :
    code.filterMap Item.label? =
      (List.range function.body.blocks.length).map (.block owner) := by
  rw [emitted.labels, Body.lines, linesFrom_starts, List.range_eq_range']
  rfl

theorem Laid.labels {items : List Item}
    (laid : Laid program definition stored around role items) :
    items.filterMap Item.label? = role.function.body.labels role.owner := by
  cases laid with
  | mk _ declares _ _ _ copied _ _ _ emitted _ _ endingLabels _ =>
      rw [region_filterMap declares copied (fun _ => rfl) (fun _ => Copies.label?),
        code_labels emitted]
      exact endingLabels

theorem Laid.gotos {items : List Item}
    (laid : Laid program definition stored around role items) :
    items.filterMap Item.goto? =
      role.function.body.instructions.filterMap (Instruction.goto? role.owner) := by
  cases laid with
  | mk _ declares _ _ _ copied _ _ _ emitted trailing _ _ _ =>
      rw [region_filterMap declares copied (fun _ => rfl) (fun _ => Copies.goto?),
        trailing_filterMap trailing (fun _ => Copies.goto?) (fun _ => rfl),
        emitted.gotos, Body.lines, linesFrom_runs, List.append_nil]
      rfl

theorem Laid.calls {items : List Item}
    (laid : Laid program definition stored around role items) :
    items.filterMap Item.called? =
      role.function.body.instructions.filterMap program.called? := by
  cases laid with
  | mk _ declares _ _ _ copied _ _ _ emitted trailing _ _ _ =>
      rw [region_filterMap declares copied (fun _ => rfl) (fun _ => Copies.called?),
        trailing_filterMap trailing (fun _ => Copies.called?) (fun _ => rfl),
        emitted.calls, Body.lines, linesFrom_runs, List.append_nil]
      rfl

/-- The blocks of a region are the expansions of its body, in order. -/
theorem Laid.expanded {items front inner back : List Item}
    (laid : Laid program definition stored around role items)
    (same : items = front ++ .block inner :: back) :
    ∃ before after invocation, role.owner.rank ≤ before.expansions ∧
      after.keptResults ⊆ stored ∧
      (role.function.body.instructions.filterMap program.invocation?)[
        (front.filterMap Item.block?).length]? = some invocation ∧
      Expanded program role.activation before after inner invocation := by
  cases laid with
  | @mk _ _ before after _ _ code _ _ _ declares _ _ _ copied _ rank kept
      emitted trailing _ _ _ =>
      have blocks := congrArg (List.filterMap Item.block?) same
      rw [region_filterMap declares copied (fun _ => rfl) (fun _ => Copies.block?),
        trailing_filterMap trailing (fun _ => Copies.block?) (fun _ => rfl),
        List.append_nil] at blocks
      have found : (code.filterMap Item.block?)[(front.filterMap
          Item.block?).length]? = some inner := by
        rw [blocks, List.filterMap_append, List.filterMap_cons]
        simp [Item.block?]
      have related := emitted.blocks
      rw [Body.lines, linesFrom_runs] at related
      obtain ⟨inside, isInner⟩ := List.getElem?_eq_some_iff.mp found
      have insideToo := inside
      rw [related.length_eq] at insideToo
      refine ⟨before, after, _, rank, kept, List.getElem?_eq_getElem insideToo, ?_⟩
      rw [← isInner]
      exact related.get inside insideToo

theorem Laid.placed {items : List Item}
    (laid : Laid program definition stored around role items) :
    Placed items := by
  cases laid with
  | @mk _ _ _ _ _ _ _ ending _ _ declares _ _ _ copied _ _ _ emitted trailing _ _
      continues =>
      apply placed_append
      · intro item member label same
        obtain ⟨declarations, rfl, _⟩ := declares
        obtain ⟨_, _, declared⟩ := List.mem_map.mp member
        cases declared.trans same
      apply placed_append
      · intro item member label same
        obtain ⟨statement, copy, _⟩ := copied item member
        cases copy.symm.trans same
      refine emitted.placed ?_ continues
      rw [← List.append_nil ending]
      refine placed_append ?_ trivial
      intro item member label same
      rcases trailing item member with ⟨statement, copy, _⟩ | ⟨number, _, finish⟩
      · cases copy.symm.trans same
      · cases finish.symm.trans same

/-- After its declarations a region declares nothing more. -/
theorem region_silent {dormant : List CalleeNumber} {before after : Usage}
    {lines : List Line} {copies code ending : List Item} {naming : Naming}
    (copied : ∀ item ∈ copies, Copies naming item)
    (emitted : Emits program dormant (activationOf function owner) before lines code
      after)
    (trailing : ∀ item ∈ ending, Copies naming item ∨
      ∃ number, owner = .expansion number ∧ item = .emptyLabel (.finish number)) :
    ∀ item ∈ copies ++ (code ++ ending), item.declared? = none := by
  intro item member
  rcases List.mem_append.mp member with copy | later
  · exact (copied item copy).declared?
  rcases List.mem_append.mp later with inCode | last
  · exact emitted.declared item inCode
  · rcases trailing item last with copy | ⟨number, _, rfl⟩
    · exact copy.declared?
    · rfl

/-- All names of a region are declared by its declarations. -/
theorem region_namesAfter {declarations copies code ending : List Item}
    {naming : Naming} {dormant : List CalleeNumber} {before after : Usage}
    {lines : List Line}
    (copied : ∀ item ∈ copies, Copies naming item)
    (emitted : Emits program dormant (activationOf function owner) before lines code
      after)
    (trailing : ∀ item ∈ ending, Copies naming item ∨
      ∃ number, owner = .expansion number ∧ item = .emptyLabel (.finish number)) :
    definition.namesAfter (declarations ++ (copies ++ (code ++ ending))) owner =
      definition.namesAfter declarations owner := by
  apply namesAfter_congr
  rw [List.filterMap_append, List.filterMap_eq_nil_iff.mpr
    (region_silent copied emitted trailing), List.append_nil]

theorem Laid.names {items : List Item}
    (laid : Laid program definition stored around role items) :
    (definition.namesAfter items role.owner).Nodup := by
  cases laid with
  | mk _ _ _ _ distinct copied _ _ _ emitted trailing _ _ _ =>
      rw [region_namesAfter copied emitted trailing]
      exact distinct

theorem naming_in_front {declarations others front back : List Item} {item : Item}
    {names : List String} {naming : Naming}
    (sight : naming = (owner, definition.namesAfter declarations owner) :: around)
    (declares : DeclaresNames declarations names)
    (silent : ∀ other ∈ others, other.declared? = none)
    (same : declarations ++ others = front ++ item :: back)
    (plain : item.declared? = none) :
    (owner, definition.namesAfter front owner) :: around = naming ∧
      item ∈ others := by
  obtain ⟨names, inside⟩ := names_in_front declares silent same plain
  have seen := namesAfter_congr definition
    (names.trans declares.filterMap_declared?.symm) owner
  rw [sight, seen]
  exact ⟨rfl, inside⟩

theorem Laid.resolved {items front back : List Item} {statement : C.Statement}
    (laid : Laid program definition stored around role items)
    (same : items = front ++ .statement statement :: back)
    {mentioned : C.Variable} (member : mentioned ∈ statement.variables) :
    Naming.resolve ((role.owner, definition.namesAfter front role.owner) :: around)
      mentioned.text = some mentioned.home := by
  cases laid with
  | @mk _ _ _ _ declarations copies code ending naming sight declares _ sees _ copied
      _ _ kept emitted trailing _ _ _ =>
      obtain ⟨seen, inside⟩ := naming_in_front sight declares
        (region_silent copied emitted trailing) same rfl
      rw [seen]
      have resolves : ∀ item, Copies naming item → item = .statement statement →
          naming.resolve mentioned.text = some mentioned.home := by
        intro item copy isStatement
        obtain ⟨other, isOther, _, _, resolves⟩ := copy
        cases isOther.symm.trans isStatement
        exact resolves mentioned member
      rcases List.mem_append.mp inside with copy | later
      · exact resolves _ (copied _ copy) rfl
      rcases List.mem_append.mp later with inCode | last
      · rcases emitted.mentions inCode member with
          ⟨number, declared, rfl⟩ | ⟨callee, isKept, rfl⟩
        · exact sees.registers number declared
        · exact sees.temporaries callee (kept isKept)
      · rcases trailing _ last with copy | ⟨number, _, finish⟩
        · exact resolves _ copy rfl
        · cases finish

theorem Laid.targets {items : List Item}
    (laid : Laid program definition stored around role items)
    {instruction : Instruction} {label : C.Label}
    (goes : label ∈ instruction.goto? role.owner)
    (present : ∀ target ∈ instruction.target?,
      target < role.function.body.blocks.length) :
    label ∈ items.filterMap Item.label? := by
  rw [laid.labels]
  unfold Body.labels
  obtain ⟨owner, function, _, _⟩ := role
  cases instruction with
  | branch target _ _ _ =>
      cases goes
      apply List.mem_append_left
      exact List.mem_map.mpr ⟨target, List.mem_range.mpr (present target rfl), rfl⟩
  | jump target =>
      cases goes
      apply List.mem_append_left
      exact List.mem_map.mpr ⟨target, List.mem_range.mpr (present target rfl), rfl⟩
  | leave =>
      cases owner with
      | function => cases goes
      | expansion number =>
          cases goes
          apply List.mem_append_right
          exact List.mem_cons_self
  | compute _ _ _ _ => cases goes
  | invoke _ _ _ => cases goes

/-- The statements of a region mention what its role says. -/
theorem Laid.mentions {items : List Item}
    (laid : Laid program definition stored around role items) :
    C.itemsMentions items = role.mentions program := by
  cases laid with
  | mk _ declares _ _ _ _ entering _ _ emitted _ leaving _ _ =>
      rw [C.itemsMentions_append, C.itemsMentions_append, C.itemsMentions_append,
        declares.itemsMentions, entering, emitted.itemsMentions_eq rfl, leaving,
        Body.lines, linesFrom_runs]
      rfl

theorem Laid.mentioned {items front back : List Item} {statement : C.Statement}
    (laid : Laid program definition stored around role items)
    (same : items = front ++ .statement statement :: back) :
    (role.mentions program)[(front.filterMap Item.statement?).length]? =
      some statement.variables := by
  rw [← laid.mentions, same, C.itemsMentions, List.filterMap_append, List.map_append,
    ← List.length_map, List.getElem?_append_right (Nat.le_refl _), Nat.sub_self]
  rfl

/-- What is read back of a region is closed. -/
theorem Laid.closed {items : List Item}
    (laid : Laid program definition stored around role items) :
    TextRegion.Closed program definition.spelled around role (C.spelledItems items) where
  nested := by
    intro front inner back same
    obtain ⟨before, here, after, split, rfl, isBlock, rfl⟩ := C.spelledItems_split same
    obtain ⟨block, rfl, rfl⟩ := C.Item.of_spelled_block isBlock
    obtain ⟨_, _, invocation, _, _, invoked, expanded⟩ := laid.expanded split
    refine ⟨invocation, ?_⟩
    rw [C.filterMap_spelledItems C.Item.block?_spelled, List.length_map,
      C.spelledItems_eq_map]
    cases expanded with
    | @mk _ _ _ _ first _ _ _ _ _ _ _ _ _ _ _ _ =>
        refine ⟨first.expansions, invoked, ?_⟩
        exact List.mem_map_of_mem (f := C.Item.spelled)
          (show .emptyLabel (.finish first.expansions) ∈ _ by simp [expansionItems])
  labels := by
    rw [C.filterMap_spelledItems C.Item.label?_spelled, laid.labels]
  placed := by
    intro front label back same
    obtain ⟨before, here, after, split, rfl, isLabel, rfl⟩ := C.spelledItems_split same
    obtain ⟨inner, rfl, rfl⟩ := C.Item.of_spelled_label isLabel
    have placed := laid.placed
    rw [split] at placed
    obtain ⟨next, later, rfl, plain⟩ := placed.after_label
    refine ⟨next.spelled, C.spelledItems later, rfl, ?_⟩
    rw [C.Item.declared?_spelled, plain]
  gotos := by
    rw [C.filterMap_spelledItems C.Item.goto?_spelled, laid.gotos]
  targets := by
    intro instruction _ label goes present
    rw [C.filterMap_spelledItems C.Item.label?_spelled]
    exact List.mem_map_of_mem (laid.targets goes present)
  names := by
    rw [Definition.namesAfter_spelled]
    exact laid.names
  mentions := by
    rw [C.variables_spelledItems, laid.mentions]
  resolved := by
    intro front statement back same
    obtain ⟨before, here, after, split, rfl, isStatement, rfl⟩ :=
      C.spelledItems_split same
    obtain ⟨inner, rfl, rfl⟩ := C.Item.of_spelled_statement isStatement
    refine ⟨inner.variables, ?_, ?_⟩
    · rw [C.filterMap_spelledItems C.Item.statement?_spelled, List.length_map]
      exact laid.mentioned split
    · intro found member
      rw [Definition.namesAfter_spelled]
      exact laid.resolved split member

/-- A nested block sees what is in sight of its region. -/
theorem Laid.sees {items front inner back : List Item}
    (laid : Laid program definition stored around role items)
    (same : items = front ++ .block inner :: back) :
    Sees definition stored role.owner role.function
      ((role.owner, definition.namesAfter front role.owner) :: around) := by
  cases laid with
  | mk sight declares _ sees _ copied _ _ _ emitted trailing _ _ _ =>
      obtain ⟨seen, _⟩ := naming_in_front sight declares
        (region_silent copied emitted trailing) same rfl
      rw [seen]
      exact sees

/-- The label at the end of an expansion has the number of the expansion. -/
theorem finish_mem_expansionItems {callee : BodiedFunction} {number other : Nat}
    {dormant : List CalleeNumber} {before after : Usage}
    {registers code : List Item} {names : List String}
    {sources targets : List C.Variable}
    (declares : DeclaresNames registers names)
    (emitted : Emits program dormant (expansionOf callee number) before
      callee.body.lines code after)
    (member : .emptyLabel (.finish other) ∈ expansionItems (expansionOf callee number)
      number registers code sources targets) : other = number := by
  rw [expansionItems_eq] at member
  rcases List.mem_append.mp member with declaration | later
  · obtain ⟨declarations, rfl, _⟩ := declares
    obtain ⟨_, _, impossible⟩ := List.mem_map.mp declaration
    cases impossible
  rcases List.mem_append.mp later with copy | later
  · obtain ⟨_, _, impossible⟩ := List.mem_map.mp copy
    cases impossible
  rcases List.mem_append.mp later with inCode | last
  · have labelled : C.Label.finish other ∈ code.filterMap Item.label? :=
      List.mem_filterMap.mpr ⟨_, inCode, rfl⟩
    rw [code_labels emitted] at labelled
    obtain ⟨_, _, impossible⟩ := List.mem_map.mp labelled
    cases impossible
  rcases List.mem_cons.mp last with finish | copy
  · cases finish
    rfl
  · obtain ⟨_, _, impossible⟩ := List.mem_map.mp copy
    cases impossible

theorem mem_inputs {activation : Activation} {sources : List C.Variable}
    {item : Item} (member : item ∈ activation.inputs sources) :
    ∃ number < sources.length, ∃ source ∈ sources,
      item = .statement (.move (activation.slot number) source) := by
  obtain ⟨⟨source, number⟩, found, rfl⟩ := List.mem_map.mp member
  have position := List.mem_zipIdx_iff_getElem?.mp found
  exact ⟨number, (List.getElem?_eq_some_iff.mp position).1, source,
    List.mem_of_getElem? position, rfl⟩

theorem mem_outputs {activation : Activation} {targets : List C.Variable}
    {item : Item} (member : item ∈ activation.outputs targets) :
    ∃ index < targets.length, ∃ target ∈ targets, item = .statement
      (.move target (activation.slot (activation.firstResult + index))) := by
  obtain ⟨⟨target, index⟩, found, rfl⟩ := List.mem_map.mp member
  have position := List.mem_zipIdx_iff_getElem?.mp found
  exact ⟨index, (List.getElem?_eq_some_iff.mp position).1, target,
    List.mem_of_getElem? position, rfl⟩

/-- A copy between two variables in sight. -/
theorem copies_move {naming : Naming} {target source : C.Variable}
    (targetSeen : naming.resolve target.text = some target.home)
    (sourceSeen : naming.resolve source.text = some source.home) :
    Copies naming (.statement (.move target source)) := by
  refine ⟨_, rfl, rfl, rfl, ?_⟩
  intro mentioned member
  rcases List.mem_cons.mp member with rfl | later
  · exact targetSeen
  · rw [List.mem_singleton.mp later]
    exact sourceSeen

section Inside

variable (callee : BodiedFunction) (number : Nat)

/-- An expansion sees its own registers, and still all that is generated
around it. -/
theorem Sees.inside (sees : Sees definition stored owner function around) :
    Sees definition stored (.expansion number) callee
      ((.expansion number, (expansionOf callee number).registerNames) :: around) where
  registers := by
    intro register inside
    apply Naming.resolve_here
    exact List.mem_map.mpr ⟨register, List.mem_range.mpr inside, rfl⟩
  temporaries := by
    intro temporary isStored
    have absent : (C.Variable.result temporary).text ∉
        (expansionOf callee number).registerNames := by
      intro member
      obtain ⟨_, _, same⟩ := List.mem_map.mp member
      exact C.Variable.register_text_ne_result_text _ _ _ same
    rw [Naming.resolve_outside _ absent]
    exact sees.temporaries temporary isStored
  origin := by
    intro name home resolves
    by_cases here : name ∈ (expansionOf callee number).registerNames
    · rw [Naming.resolve_here _ here] at resolves
      cases resolves
      obtain ⟨register, _, rfl⟩ := List.mem_map.mp here
      exact .inr ⟨_, rfl, rfl, rfl⟩
    · rw [Naming.resolve_outside _ here] at resolves
      exact sees.origin name home resolves

theorem Sees.outer (sees : Sees definition stored owner function around)
    (different : owner ≠ .expansion number) {numbers : List RegisterNumber}
    (declared : (activationOf function owner).Declares numbers) :
    ∀ source ∈ numbers.map (activationOf function owner).slot,
      Naming.resolve ((.expansion number, (expansionOf callee number).registerNames) ::
        around) source.text = some source.home := by
  intro source member
  obtain ⟨register, isNumber, rfl⟩ := List.mem_map.mp member
  rw [Naming.resolve_outside _ (slot_text_not_mem_registerNames different _ _ _)]
  exact sees.registers register (declared register isNumber)

theorem finishing_labels (targets : List C.Variable) :
    (finishing callee number targets).filterMap Item.label? = [.finish number] := by
  have silent : ((expansionOf callee number).outputs targets).filterMap
      Item.label? = [] := by
    apply List.filterMap_eq_nil_iff.mpr
    intro item member
    obtain ⟨_, _, _, _, rfl⟩ := mem_outputs member
    rfl
  rw [finishing, List.filterMap_cons, silent]
  rfl

variable {callee number}

theorem finishing_mentions (role : Role) (owned : role.owner = .expansion number) :
    C.itemsMentions (finishing role.function number role.targets) = role.ending := by
  have outputs := itemsMentions_outputs role role.targets
  rw [Role.activation, owned] at outputs
  rw [Role.ending, owned]
  exact outputs

/-- A nested block is laid out for its invocation.  It was emitted with some
number, and its end label shows which. -/
theorem Laid.inside {items front inner back : List Item} {invocation : Invocation}
    (laid : Laid program definition stored around role items)
    (same : items = front ++ .block inner :: back)
    (invoked : (role.function.body.instructions.filterMap program.invocation?)[
      (front.filterMap Item.block?).length]? = some invocation)
    (ending : .emptyLabel (.finish number) ∈ inner) :
    Laid program definition stored
      ((role.owner, definition.namesAfter front role.owner) :: around)
      ⟨.expansion number, invocation.function, invocation.args.map role.register,
        invocation.results.map role.register⟩ inner := by
  have sees := laid.sees same
  obtain ⟨before, after, _, rank, kept, found, expanded⟩ := laid.expanded same
  cases found.symm.trans invoked
  cases expanded with
  | @mk callee _ args results first last registers code argCount resultCount argsDeclared
      resultsDeclared earlier valid declared inside later =>
      have declares := declarations_names declared
      cases finish_mem_expansionItems declares inside ending
      have different := home_ne_owner rank earlier.expansions
      have enough := Activation.validate_success valid
      have names : definition.namesAfter registers (.expansion first.expansions) =
          (expansionOf callee first.expansions).registerNames :=
        declares.filterMap_declared?
      have seesInside := sees.inside callee first.expansions
      rw [expansionItems_eq]
      refine .mk ?_ declares (declarations_basics declared) seesInside ?_ ?_
        (itemsMentions_inputs ⟨_, _, _, _⟩) (Nat.le_refl _)
        (List.Subset.trans later.keptResults_subset kept) inside ?_
        (finishing_mentions ⟨_, _, _, _⟩ rfl) ?_ ?_
      · rw [names]
      · rw [names]
        exact registerNames_nodup _
      · intro item member
        obtain ⟨number, inside, source, isSource, rfl⟩ := mem_inputs member
        rw [List.length_map, argCount] at inside
        refine copies_move (seesInside.registers number ?_)
          (sees.outer callee _ different argsDeclared source isSource)
        exact Nat.lt_of_lt_of_le inside (Nat.le_trans (Nat.le_add_right _ _) enough)
      · intro item member
        rcases List.mem_cons.mp member with finish | copy
        · exact .inr ⟨_, rfl, finish⟩
        · obtain ⟨index, inside, target, isTarget, rfl⟩ := mem_outputs copy
          rw [List.length_map, resultCount] at inside
          refine .inl (copies_move (sees.outer callee _ different resultsDeclared
            target isTarget) (seesInside.registers _ ?_))
          exact Nat.lt_of_lt_of_le (Nat.add_lt_add_left inside _) enough
      · rw [finishing_labels]
        rfl
      · intro _ _
        exact ⟨_, _, rfl, rfl⟩

end Inside

/-- The end of a definition reads registers only. -/
theorem EndsWith.copies {ending : List Item} {item : Item} {naming : Naming}
    (ends : EndsWith (definitionOf function) ending)
    (registers : ∀ number < function.body.registers.length,
      naming.resolve (C.Variable.register .function number).text = some .function)
    (member : item ∈ ending) : Copies naming item := by
  obtain ⟨value, rfl, finished⟩ := ends.leave_of_mem member
  refine ⟨.leave value, rfl, rfl, rfl, ?_⟩
  intro mentioned isMentioned
  have mentions : (definitionOf function).Mentions [] mentioned :=
    finish_mentions finished isMentioned
  rcases mentions with ⟨number, declared, rfl⟩ | ⟨_, impossible, _⟩
  · exact registers number declared
  · cases impossible

theorem EndsWith.continues {ending : List Item} {number : BlockNumber}
    (ends : EndsWith (definitionOf function) ending)
    (last : function.body.lines.getLast? = some (.start number)) :
    Continues ending := by
  cases ending with
  | nil =>
      have diverts := ends.diverts rfl
      have empty : function.body.blocks.getLast? = some [] := linesFrom_getLast? last
      rw [show (definitionOf function).body = function.body from rfl, empty] at diverts
      cases diverts
  | cons item ending =>
      obtain ⟨value, rfl, _⟩ := ends.leave_of_mem List.mem_cons_self
      exact ⟨_, _, rfl, rfl⟩

theorem EndsWith.itemsMentions_eq {ending : List Item}
    (ends : EndsWith (definitionOf function) ending) (sources targets : List C.Variable) :
    C.itemsMentions ending = Role.ending ⟨.function, function, sources, targets⟩ := by
  unfold EndsWith at ends
  split at ends
  · rename_i diverts
    rw [ends]
    exact (if_pos diverts).symm
  · rename_i fallsThrough
    obtain ⟨item, finished, rfl⟩ := ends
    exact (finish_leaving rfl finished).trans (if_neg fallsThrough).symm

theorem Sees.whole {params : List String} {usage : Usage}
    (named : definition.paramNames = params) :
    Sees definition usage.keptResults .function function [(.function, params ++
      ((definitionOf function).registerNames ++ temporaryNames usage.results))] where
  registers := by
    intro number inside
    apply Naming.resolve_here
    apply List.mem_append_right
    apply List.mem_append_left
    exact List.mem_map.mpr ⟨number, List.mem_range.mpr inside, rfl⟩
  temporaries := by
    intro callee isKept
    obtain ⟨entry, kept, rfl⟩ := List.mem_map.mp isKept
    apply Naming.resolve_here
    apply List.mem_append_right
    apply List.mem_append_right
    exact List.mem_map.mpr ⟨entry, kept, rfl⟩
  origin := by
    intro name home resolves
    by_cases here : name ∈ params ++
        ((definitionOf function).registerNames ++ temporaryNames usage.results)
    · rw [Naming.resolve_here _ here] at resolves
      cases resolves
      rcases List.mem_append.mp here with isParam | isLocal
      · rw [named]
        exact .inl isParam
      rcases List.mem_append.mp isLocal with register | temporary
      · obtain ⟨number, _, rfl⟩ := List.mem_map.mp register
        exact .inr ⟨_, rfl, rfl, rfl⟩
      · obtain ⟨entry, _, rfl⟩ := List.mem_map.mp temporary
        exact .inr ⟨_, rfl, rfl, rfl⟩
    · rw [Naming.resolve_outside _ here] at resolves
      cases resolves

theorem Laid.whole {before after : List NativeFunction}
    (defines : Defines program function before definition after) :
    ∃ stored, Laid program definition stored []
      ⟨.function, function, definition.paramNames.map .param, []⟩ definition.items := by
  cases defines with
  | @mk usage head registers temporaries code ending fewResults valid emitted ends
      headed declared stored =>
      have sound : usage.Sound program := emitted.sound ⟨by simp [Usage.keptResults],
        by simp [Usage.keptResults]⟩
      have enough := Activation.validate_success valid
      obtain ⟨differ, paramCount, usable⟩ := definitionType_names program function.type
      have params := TypeStore.declareFunction_parameters headed
      have declares := (declarations_names declared).append (temporaries_names stored)
      have inScope : ∀ items, Definition.namesAfter ⟨head, items⟩
          (registers ++ temporaries) .function =
            (program.definitionType function.type).params.map Field.name ++
              ((definitionOf function).registerNames ++
                temporaryNames usage.results) := by
        intro items
        rw [Definition.namesAfter, declares.filterMap_declared?]
        exact congrArg (· ++ _) params
      have sees : ∀ items, Sees ⟨head, items⟩ usage.keptResults .function function _ :=
        fun _ => Sees.whole params
      have seesRegister := (sees []).registers
      have sources : (program.definitionType function.type).params.map
          (fun param => C.Variable.param param.name) =
            (head.declarator.parameters.map (·.declarator.declared)).map .param := by
        rw [params, List.map_map]
        rfl
      refine ⟨usage.keptResults, ?_⟩
      rw [List.append_assoc]
      refine .mk ?_ declares ((declarations_basics declared).append
          (temporaries_basics stored)) (sees _) ?_ ?_ ?_ (Nat.zero_le _)
        (List.Subset.refl _) emitted
        (fun _ member => .inl (ends.copies seesRegister member))
        (ends.itemsMentions_eq _ _) ?_ (fun _ last => ends.continues last)
      · rw [inScope]
      · rw [inScope, List.nodup_append]
        refine ⟨differ, locals_nodup sound _, ?_⟩
        intro name isParam other isLocal same
        rw [← same] at isLocal
        exact param_not_mem_locals (usable name isParam) _ _ isLocal
      · intro item member
        obtain ⟨number, inside, source, isSource, rfl⟩ := mem_inputs member
        obtain ⟨param, isParam, rfl⟩ := List.mem_map.mp isSource
        refine copies_move (seesRegister number ?_) (Naming.resolve_here _ ?_ _)
        · rw [List.length_map, paramCount] at inside
          exact Nat.lt_of_lt_of_le inside (Nat.le_trans (Nat.le_add_right _ _) enough)
        · exact List.mem_append_left _ (List.mem_map.mpr ⟨param, isParam, rfl⟩)
      · rw [sources]
        exact itemsMentions_inputs ⟨.function, function, _, []⟩
      · have silent : ending.filterMap Item.label? = [] := by
          apply List.filterMap_eq_nil_iff.mpr
          intro item member
          exact (ends.copies seesRegister member).label?
        rw [silent]
        rfl

/-- Every region is laid out as described. -/
theorem Region.laid {root : BodiedFunction} {items : List Item}
    (whole : Laid program definition stored []
      ⟨.function, root, definition.paramNames.map .param, []⟩ definition.items)
    (region : Region program root definition around owner function items) :
    ∃ sources targets, Laid program definition stored around
      ⟨owner, function, sources, targets⟩ items := by
  induction region with
  | whole => exact ⟨_, _, whole⟩
  | @expansion _ _ outer inner front _ _ _ _ invoked ending induction =>
      obtain ⟨sources, targets, laid⟩ := induction
      have found := invoked
      rw [funext program.inlined?_eq, ← List.map_filterMap, List.getElem?_map] at found
      obtain ⟨invocation, isInvocation, rfl⟩ := Option.map_eq_some_iff.mp found
      exact ⟨_, _, laid.inside rfl isInvocation ending⟩

theorem finish_mem_of_spelled {items : List Item} {number : Nat}
    (ending : .emptyLabel (C.Label.finish number).text ∈ C.spelledItems items) :
    .emptyLabel (.finish number) ∈ items := by
  rw [C.spelledItems_eq_map] at ending
  obtain ⟨item, member, same⟩ := List.mem_map.mp ending
  obtain ⟨label, rfl, sameText⟩ := C.Item.of_spelled_emptyLabel same.symm
  rw [C.Label.text_injective sameText]
  exact member

/-- Every region that is read back was laid out as described. -/
theorem TextRegion.laid {root : BodiedFunction} {items : List C.Spelled.Item}
    (whole : Laid program definition stored []
      ⟨.function, root, definition.paramNames.map .param, []⟩ definition.items)
    (region : TextRegion program root definition.spelled around role items) :
    ∃ inner, items = C.spelledItems inner ∧
      Laid program definition stored around role inner := by
  induction region with
  | whole => exact ⟨definition.items, rfl, whole⟩
  | @expansion _ outer _ front _ _ number _ invoked ending induction =>
      obtain ⟨inner, same, laid⟩ := induction
      obtain ⟨before, here, after, split, rfl, isBlock, rfl⟩ :=
        C.spelledItems_split same.symm
      obtain ⟨block, rfl, rfl⟩ := C.Item.of_spelled_block isBlock
      rw [C.filterMap_spelledItems C.Item.block?_spelled, List.length_map] at invoked
      rw [Definition.namesAfter_spelled]
      exact ⟨block, rfl, laid.inside split invoked (finish_mem_of_spelled ending)⟩

theorem Defines.labels_nodup {before after : List NativeFunction}
    (defines : Defines program function before definition after) :
    (C.Spelled.itemsLabels definition.spelled.items).Nodup := by
  rw [Definition.spelled, C.itemsLabels_spelledItems]
  apply List.Nodup.map
  · intro left right same
    exact C.Label.text_injective same
  cases defines with
  | @mk usage _ _ _ code ending _ _ emitted ends _ declared stored =>
      have declares := (declarations_names declared).append (temporaries_names stored)
      have silent : C.itemsLabels ending = [] := by
        apply itemsLabels_eq_nil
        intro item member
        obtain ⟨value, rfl, _⟩ := ends.leave_of_mem member
        rfl
      simp only [C.itemsLabels_append, declares.itemsLabels, itemsLabels_inputs, silent,
        List.nil_append, List.append_nil]
      apply emitted.itemsLabels_nodup (Nat.zero_le _)
      rw [Body.lines, linesFrom_starts]
      exact List.nodup_range'

theorem Defines.closed {before after : List NativeFunction}
    (defines : Defines program function before definition after) :
    Closed program function definition.spelled where
  distinct := defines.labels_nodup
  regions := by
    intro around role items region
    obtain ⟨stored, whole⟩ := Laid.whole defines
    obtain ⟨inner, rfl, laid⟩ := region.laid whole
    exact laid.closed

end Laid

end Lowering

end CBackend
