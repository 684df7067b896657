import CBackend.Proofs.Execution.Bodies
import CBackend.Proofs.Execution.Definitions
import CBackend.Proofs.Lowering.LocalNames

/-!
# Entering a block

A block begins with the declarations of its registers and with copies of the
arguments into the first of them.  After these the variables of the block
hold what a new frame has in its registers.
-/

namespace CBackend.Execution

open Lowering

variable {setting : Setting Value World}

/-- Reading depends on the innermost block only through the name read. -/
theorem Scopes.read_congr {left right : Scope Value} {name : String}
    (same : left.bindings name = right.bindings name) (outer : Scopes Value) :
    Scopes.read (left :: outer) name = Scopes.read (right :: outer) name := by
  simp only [Scopes.read, List.findSome?_cons, same]

/-- The scope after names have been declared in it. -/
structure Scope.Initialised (setting : Setting Value World) (scope : Scope Value)
    (names : List String) (declared : Scope Value) : Prop where
  items : declared.items = scope.items
  named : ∀ index name, names[index]? = some name →
    declared.bindings name = some (setting.initial scope.number (scope.declared + index))
  others : ∀ name, name ∉ names → declared.bindings name = scope.bindings name

theorem Scope.Initialised.cons {scope declared : Scope Value} {name : String}
    {names : List String} (repeated : name ∉ names)
    (initialised : (scope.initialise setting name).Initialised setting names declared) :
    scope.Initialised setting (name :: names) declared where
  items := initialised.items
  named := by
    intro index other found
    cases index with
    | zero =>
        have same : name = other := by simpa using found
        rw [← same, initialised.others name repeated, Nat.add_zero]
        exact scope.bindings_assign name _
    | succ index =>
        have initial := initialised.named index other (by simpa using found)
        rw [initial, Nat.add_comm index 1, ← Nat.add_assoc]
        rfl
  others := by
    intro other missing
    rw [List.mem_cons, not_or] at missing
    rw [initialised.others other missing.2]
    exact scope.bindings_assign_of_ne missing.1 _

theorem Scopes.reaches_initialised (setting : Setting Value World)
    {names : List String} {items : List C.Item}
    (declares : DeclaresNames items names) (distinct : names.Nodup)
    {scope : Scope Value} (fresh : ∀ name ∈ names, scope.bindings name = none)
    (outer : Scopes Value) (rest : List C.Item) (effects : Effects Value World) :
    ∃ declared, scope.Initialised setting names declared ∧
      (Scopes.step setting).Reaches
        (.running (scope.standing (items ++ rest) :: outer) effects)
        (.running (declared.standing rest :: outer) effects) := by
  obtain ⟨declarations, rfl, rfl⟩ := declares
  induction declarations generalizing scope with
  | nil =>
      refine ⟨scope, ⟨rfl, ?_, fun _ _ => rfl⟩, .refl _⟩
      intro index name found
      simp at found
  | cons declaration declarations induction =>
      rw [List.map_cons] at distinct fresh
      obtain ⟨repeated, distinct⟩ := List.nodup_cons.mp distinct
      let name := declaration.declarator.declared
      have absent : scope.bindings name = none := fresh name List.mem_cons_self
      have nextFresh : ∀ other ∈ declarations.map (·.declarator.declared),
          (scope.initialise setting name).bindings other = none := by
        intro other member
        have different : other ≠ name := by
          intro same
          rw [same] at member
          exact repeated member
        have unchanged := scope.bindings_assign_of_ne different
          (setting.initial scope.number scope.declared)
        exact unchanged.trans (fresh other (List.mem_cons_of_mem _ member))
      obtain ⟨declared, initialised, reached⟩ := induction distinct nextFresh
      refine ⟨declared, initialised.cons repeated, ?_⟩
      apply Step.Reaches.head
      rw [List.map_cons, List.cons_append,
        Scopes.step_declare scope outer effects _ absent]
      exact reached

/-- The scope after values have been copied into registers. -/
structure Scope.Filled (activation : Activation) (first : RegisterNumber)
    (scope : Scope Value) (values : List Value) (filled : Scope Value) : Prop where
  items : filled.items = scope.items
  copied : ∀ index value, values[index]? = some value →
    filled.bindings (activation.slot (first + index)).text = some value
  others : ∀ name,
    (∀ index < values.length, name ≠ (activation.slot (first + index)).text) →
      filled.bindings name = scope.bindings name

theorem Scope.Filled.cons {activation : Activation} {first : Nat} {value : Value}
    {scope filled : Scope Value} {values : List Value}
    (fills : (scope.assign (activation.slot first).text value).Filled activation
      (first + 1) values filled) :
    scope.Filled activation first (value :: values) filled where
  items := fills.items
  copied := by
    intro index copied found
    cases index with
    | zero =>
        have same : value = copied := by simpa using found
        rw [← same, Nat.add_zero, fills.others]
        · exact scope.bindings_assign _ value
        · intro index _ same
          have := slot_text_injective same
          omega
    | succ index =>
        have later := fills.copied index copied (by simpa using found)
        rw [Nat.add_assoc, Nat.add_comm 1 index] at later
        exact later
  others := by
    intro other missing
    rw [fills.others]
    · exact scope.bindings_assign_of_ne (missing 0 (Nat.zero_lt_succ _)) value
    · intro index inside
      rw [Nat.add_assoc, Nat.add_comm 1 index]
      exact missing (index + 1) (Nat.succ_lt_succ inside)

/-- Copies from variables that are not among the registers themselves. -/
theorem Scopes.reaches_filled (setting : Setting Value World)
    (first : RegisterNumber) {activation : Activation} {sources : List C.Variable}
    {values : List Value} {scope : Scope Value} {outer : Scopes Value}
    (reads : List.Forall₂ (fun source value =>
      Scopes.read (scope :: outer) source.text = some value ∧
        ∀ number, source.text ≠ (activation.slot number).text) sources values)
    (declared : ∀ index < values.length,
      ∃ old, scope.bindings (activation.slot (first + index)).text = some old)
    (rest : List C.Item) (effects : Effects Value World) :
    ∃ filled, scope.Filled activation first values filled ∧
      (Scopes.step setting).Reaches
        (.running (scope.standing ((sources.zipIdx first).map (fun entry =>
          .statement (.move (activation.slot entry.2) entry.1)) ++ rest) :: outer)
          effects)
        (.running (filled.standing rest :: outer) effects) := by
  induction sources generalizing scope values first with
  | nil =>
      cases reads
      refine ⟨scope, ⟨rfl, ?_, fun _ _ => rfl⟩, .refl _⟩
      intro index value found
      simp at found
  | cons source sources induction =>
      obtain ⟨value, values, readsHere, readsLater, rfl⟩ :=
        List.forall₂_cons_left_iff.mp reads
      obtain ⟨old, here⟩ := declared 0 (Nat.zero_lt_succ _)
      let name := (activation.slot first).text
      let next := scope.assign name value
      have unchanged : ∀ other, other ≠ name →
          next.bindings other = scope.bindings other := by
        intro other different
        exact scope.bindings_assign_of_ne different value
      have laterReads : List.Forall₂ (fun source value =>
          Scopes.read (next :: outer) source.text = some value ∧
            ∀ number, source.text ≠ (activation.slot number).text)
          sources values := by
        apply readsLater.imp
        intro other found readsOther
        obtain ⟨reads, foreign⟩ := readsOther
        refine ⟨?_, foreign⟩
        rw [Scopes.read_congr (unchanged _ (foreign first))]
        exact reads
      have laterDeclared : ∀ index < values.length, ∃ old, next.bindings
          (activation.slot (first + 1 + index)).text = some old := by
        intro index inside
        have different : (activation.slot (first + 1 + index)).text ≠ name := by
          intro same
          have := slot_text_injective same
          omega
        rw [unchanged _ different, Nat.add_assoc, Nat.add_comm 1 index]
        exact declared (index + 1) (Nat.succ_lt_succ inside)
      obtain ⟨filled, fills, reached⟩ := induction (first + 1) laterReads laterDeclared
      refine ⟨filled, fills.cons, ?_⟩
      apply Step.Reaches.head
      have copies : ∀ more : List C.Item, Scopes.step setting
          (scope.standing (.statement (.move (activation.slot first) source) ::
            more) :: outer) effects =
            .running (next.standing more :: outer) effects := by
        intro more
        apply Scopes.step_statement
        exact Scopes.run_move effects readsHere.1
          (Scopes.write_standing here value more)
      rw [List.zipIdx_cons, List.map_cons, List.cons_append, copies]
      exact reached

/-- The variables of an activation hold the registers of a frame. -/
structure Holds (activation : Activation) (frame : Frame Value)
    (scope : Scope Value) : Prop where
  size : frame.registers.length = activation.body.registers.length
  values : ∀ number < activation.body.registers.length,
    scope.bindings (activation.slot number).text = frame.read number

/-- Declared registers filled with arguments are those of a new frame. -/
theorem holds_enter {function : BodiedFunction} {owner : C.Owner}
    {scope declared filled : Scope Value} {more : List String}
    {args : List Value} (results : List RegisterNumber)
    (unused : scope.declared = 0)
    (initialised : scope.Initialised setting
      ((activationOf function owner).registerNames ++ more) declared)
    (fills : declared.Filled (activationOf function owner) 0 args filled) :
    Holds (activationOf function owner)
      (.enter setting function args results scope.number) filled := by
  constructor
  · simp [Frame.enter, activationOf]
  · intro number inside
    have entered : (Frame.enter setting function args results scope.number).read
        number = some (args[number]?.getD (setting.initial scope.number number)) := by
      have bound : number < function.body.registers.length := inside
      simp [Frame.read, Frame.enter, bound]
    rw [entered]
    cases found : args[number]? with
    | some value =>
        have copied := fills.copied number value found
        rw [Nat.zero_add] at copied
        exact copied
    | none =>
        have beyond := List.getElem?_eq_none_iff.mp found
        rw [fills.others, initialised.named number _
          (registerNames_getElem? inside more), unused, Nat.zero_add]
        · rfl
        · intro index before same
          have := slot_text_injective same
          omega

/-- Names declared with some value. -/
def Scope.Binds (scope : Scope Value) (name : String) : Prop :=
  ∃ value, scope.bindings name = some value

theorem Scope.Initialised.binds_iff {scope declared : Scope Value}
    {names : List String} (initialised : scope.Initialised setting names declared)
    (name : String) : declared.Binds name ↔ name ∈ names ∨ scope.Binds name := by
  by_cases member : name ∈ names
  · obtain ⟨index, found⟩ := List.mem_iff_getElem?.mp member
    simp only [member, true_or, iff_true]
    exact ⟨_, initialised.named index name found⟩
  · simp only [member, false_or, Scope.Binds, initialised.others name member]

theorem Scope.Filled.binds_iff {activation : Activation}
    {scope filled : Scope Value} {values : List Value}
    (fills : scope.Filled activation 0 values filled)
    (declared : ∀ index < values.length, scope.Binds (activation.slot index).text)
    (name : String) : filled.Binds name ↔ scope.Binds name := by
  by_cases copied : ∃ index < values.length, name = (activation.slot index).text
  · obtain ⟨index, inside, rfl⟩ := copied
    have now := fills.copied index values[index] (List.getElem?_eq_getElem inside)
    rw [Nat.zero_add] at now
    exact ⟨fun _ => declared index inside, fun _ => ⟨_, now⟩⟩
  · rw [Scope.Binds, fills.others name]
    · rfl
    · intro index inside same
      rw [Nat.zero_add] at same
      exact copied ⟨index, inside, same⟩

/-- The beginning of a block makes it hold the registers of a new frame. -/
theorem Scopes.reaches_entered (setting : Setting Value World)
    {function : BodiedFunction} {owner : C.Owner}
    {items : List C.Item} {names more : List String} {sources : List C.Variable}
    {values : List Value} {scope : Scope Value} {outer : Scopes Value}
    (all : names = (activationOf function owner).registerNames ++ more)
    (declares : DeclaresNames items names) (distinct : names.Nodup)
    (fresh : ∀ name ∈ names, scope.bindings name = none)
    (unused : scope.declared = 0)
    (enough : values.length ≤ function.body.registers.length)
    (reads : List.Forall₂ (fun source value =>
      Scopes.read (scope :: outer) source.text = some value ∧ source.text ∉ names ∧
        ∀ number, source.text ≠ ((activationOf function owner).slot number).text)
      sources values)
    (results : List RegisterNumber) (rest : List C.Item)
    (effects : Effects Value World) :
    ∃ entered, Holds (activationOf function owner)
        (.enter setting function values results scope.number) entered ∧
      entered.items = scope.items ∧
      (∀ name, entered.Binds name ↔ name ∈ names ∨ scope.Binds name) ∧
      (Scopes.step setting).Reaches
        (.running (scope.standing (items ++
          ((activationOf function owner).inputs sources ++ rest)) :: outer) effects)
        (.running (entered.standing rest :: outer) effects) := by
  obtain ⟨declared, initialised, reachesDeclared⟩ :=
    Scopes.reaches_initialised setting declares distinct fresh outer
      ((activationOf function owner).inputs sources ++ rest) effects
  have bound : ∀ index < values.length,
      declared.Binds ((activationOf function owner).slot index).text := by
    intro index inside
    apply (initialised.binds_iff _).mpr
    left
    rw [all]
    apply List.mem_of_getElem?
    exact registerNames_getElem? (Nat.lt_of_lt_of_le inside enough) more
  have readsDeclared : List.Forall₂ (fun source value =>
      Scopes.read (declared :: outer) source.text = some value ∧
        ∀ number, source.text ≠ ((activationOf function owner).slot number).text)
      sources values := by
    apply reads.imp
    intro source value readsSource
    obtain ⟨read, unnamed, foreign⟩ := readsSource
    refine ⟨?_, foreign⟩
    rw [Scopes.read_congr (initialised.others source.text unnamed)]
    exact read
  have boundFrom : ∀ index < values.length, ∃ old, declared.bindings
      ((activationOf function owner).slot (0 + index)).text = some old := by
    intro index inside
    rw [Nat.zero_add]
    exact bound index inside
  obtain ⟨entered, fills, reachesEntered⟩ :=
    Scopes.reaches_filled setting 0 readsDeclared boundFrom rest effects
  rw [all] at initialised
  refine ⟨entered, holds_enter results unused initialised fills,
    fills.items.trans initialised.items, ?_, reachesDeclared.trans reachesEntered⟩
  intro name
  rw [fills.binds_iff bound, initialised.binds_iff, all]

end CBackend.Execution
