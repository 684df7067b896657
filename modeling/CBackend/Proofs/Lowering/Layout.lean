import CBackend.Proofs.C.Names
import CBackend.Proofs.Lowering.TextRegions
import CBackend.Proofs.Lowering.Usage

/-!
# Layout of emitted code

What the code of a body consists of, read off from its lines: a label for
every block, a goto for every branch, jump and return, and a nested block for
every inlined invocation, all in order.  Labels are never defined twice,
since an owner numbers its blocks and expansions are numbered one after the
other.
-/

namespace CBackend

namespace Line

def start? : Line → Option BlockNumber
  | .start number => some number
  | .run _ => none

def run? : Line → Option Instruction
  | .start _ => none
  | .run instruction => some instruction

end Line

theorem linesFrom_append (first : BlockNumber) (left right : List Block) :
    linesFrom first (left ++ right) =
      linesFrom first left ++ linesFrom (first + left.length) right := by
  induction left generalizing first with
  | nil => rfl
  | cons block left induction =>
      rw [List.cons_append, linesFrom, induction, linesFrom, List.length_cons,
        Nat.add_assoc, Nat.add_comm 1]
      simp

theorem linesFrom_starts (first : BlockNumber) (blocks : List Block) :
    (linesFrom first blocks).filterMap Line.start? =
      List.range' first blocks.length := by
  induction blocks generalizing first with
  | nil => rfl
  | cons block blocks induction =>
      have inside : (block.map Line.run).filterMap Line.start? = [] := by
        simp [List.filterMap_map, Line.start?, Function.comp_def]
      rw [linesFrom, List.filterMap_cons, List.filterMap_append, inside, induction,
        List.length_cons, List.range'_succ]
      rfl

theorem linesFrom_runs (first : BlockNumber) (blocks : List Block) :
    (linesFrom first blocks).filterMap Line.run? = blocks.flatten := by
  induction blocks generalizing first with
  | nil => rfl
  | cons block blocks induction =>
      have inside : (block.map Line.run).filterMap Line.run? = block := by
        simp [List.filterMap_map, Line.run?, Function.comp_def]
      rw [linesFrom, List.filterMap_cons, List.filterMap_append, inside, induction,
        List.flatten_cons]
      rfl

/-- Lines end with the start of a block only if that block is empty. -/
theorem linesFrom_getLast? {first number : BlockNumber} {blocks : List Block}
    (last : (linesFrom first blocks).getLast? = some (.start number)) :
    blocks.getLast? = some [] := by
  rcases List.eq_nil_or_concat blocks with rfl | ⟨earlier, block, rfl⟩
  · cases last
  rw [List.concat_eq_append, linesFrom_append, linesFrom, linesFrom,
    List.append_nil] at last
  rw [List.concat_eq_append, List.getLast?_concat]
  rcases List.eq_nil_or_concat block with rfl | ⟨instructions, instruction, rfl⟩
  · rfl
  · simp [List.getLast?_append, List.getLast?_cons] at last

namespace Lowering

theorem Emits.split {program : Program} {dormant : List CalleeNumber}
    {activation : Activation} {before after : Usage} {left right : List Line}
    {items : List C.Item}
    (emitted : Emits program dormant activation before (left ++ right) items after) :
    ∃ between first second, items = first ++ second ∧
      Emits program dormant activation before left first between ∧
      Emits program dormant activation between right second after := by
  induction left generalizing before items with
  | nil => exact ⟨before, [], items, rfl, .nil, emitted⟩
  | cons line left induction =>
      cases emitted with
      | start later =>
          obtain ⟨between, first, second, rfl, one, two⟩ := induction later
          exact ⟨between, _ :: first, second, rfl, .start one, two⟩
      | plain here later =>
          obtain ⟨between, first, second, rfl, one, two⟩ := induction later
          exact ⟨between, _, second, (List.append_assoc _ _ _).symm,
            .plain here one, two⟩
      | expanded found argCount resultCount argsDeclared resultsDeclared allowed
          valid declared inside later =>
          obtain ⟨between, first, second, rfl, one, two⟩ := induction later
          exact ⟨between, _ :: first, second, rfl,
            .expanded found argCount resultCount argsDeclared resultsDeclared
              allowed valid declared inside one, two⟩

theorem Activation.finish_leaves {activation : Activation} {item : C.Item}
    (finished : activation.finish = .ok item) :
    ∃ value, item = .statement (.leave value) := by
  unfold finish at finished
  split at finished
  · cases finished
    exact ⟨none, rfl⟩
  · obtain ⟨value, _, same⟩ := Success.bind_iff.mp finished
    cases same
    exact ⟨some value, rfl⟩
  · cases finished

theorem EndsWith.leave_of_mem {function : BodiedFunction} {ending : List C.Item}
    {item : C.Item} (ends : EndsWith (definitionOf function) ending) (member : item ∈ ending) :
    ∃ value, item = .statement (.leave value) ∧
      (definitionOf function).finish = .ok (.statement (.leave value)) := by
  unfold EndsWith at ends
  split at ends
  · rw [ends] at member
    cases member
  · obtain ⟨last, finished, rfl⟩ := ends
    obtain ⟨value, rfl⟩ := Activation.finish_leaves finished
    exact ⟨value, List.mem_singleton.mp member, finished⟩

/-- A definition is left by a return, an expansion by a goto. -/
theorem Activation.leave_success {activation : Activation} {item : C.Item}
    (left : activation.leave = .ok item) :
    (activation.owner = .function ∧ ∃ value, item = .statement (.leave value)) ∨
      ∃ number, activation.owner = .expansion number ∧
        item = .statement (.goto (.finish number)) := by
  unfold leave at left
  split at left
  · rename_i owner
    exact .inl ⟨owner, finish_leaves left⟩
  · rename_i number owner
    cases left
    exact .inr ⟨number, owner, rfl⟩

/-- Without an expansion only statements are emitted. -/
theorem EmitsPlain.statement_of_mem {program : Program} {activation : Activation}
    {before after : Usage} {instruction : Instruction} {items : List C.Item}
    (emitted : EmitsPlain program activation before instruction items after)
    {item : C.Item} (member : item ∈ items) :
    ∃ statement, item = .statement statement := by
  cases emitted with
  | compute _ => exact ⟨_, List.mem_singleton.mp member⟩
  | branch _ => exact ⟨_, List.mem_singleton.mp member⟩
  | jump => exact ⟨_, List.mem_singleton.mp member⟩
  | leave left =>
      rw [List.mem_singleton.mp member]
      rcases Activation.leave_success left with ⟨_, value, rfl⟩ | ⟨_, _, rfl⟩
      · exact ⟨_, rfl⟩
      · exact ⟨_, rfl⟩
  | called _ _ _ _ _ _ _ calls =>
      rcases call_success calls with ⟨_, rfl, _⟩ | ⟨_, _, rfl, _⟩
      · exact ⟨_, List.mem_singleton.mp member⟩
      · rcases List.mem_cons.mp member with here | later
        · exact ⟨_, here⟩
        · obtain ⟨target, _, same⟩ := List.mem_map.mp later
          exact ⟨_, same.symm⟩

section Plain

variable {program : Program} {activation : Activation} {before after : Usage}
  {instruction : Instruction} {items : List C.Item}

theorem EmitsPlain.labels
    (emitted : EmitsPlain program activation before instruction items after) :
    items.filterMap C.Item.label? = [] := by
  apply List.filterMap_eq_nil_iff.mpr
  intro item member
  obtain ⟨statement, rfl⟩ := emitted.statement_of_mem member
  rfl

theorem EmitsPlain.blocks
    (emitted : EmitsPlain program activation before instruction items after) :
    items.filterMap C.Item.block? = [] := by
  apply List.filterMap_eq_nil_iff.mpr
  intro item member
  obtain ⟨statement, rfl⟩ := emitted.statement_of_mem member
  rfl

theorem invocation?_called {number : CalleeNumber} {callee : Callee} {symbol : String}
    (found : program.callees[number]? = some callee)
    (named : callee.symbol? = some symbol) (args results : List RegisterNumber) :
    program.invocation? (.invoke number args results) = none := by
  cases callee with
  | native function => simp [Program.invocation?, found]
  | compiled function => simp [Program.invocation?, found]
  | inlined function => cases named

theorem EmitsPlain.invocation?_eq_none
    (emitted : EmitsPlain program activation before instruction items after) :
    program.invocation? instruction = none := by
  cases emitted with
  | compute _ => rfl
  | branch _ => rfl
  | jump => rfl
  | leave _ => rfl
  | called found named _ _ _ _ _ _ => exact invocation?_called found named _ _

theorem EmitsPlain.present
    (emitted : EmitsPlain program activation before instruction items after) :
    items ≠ [] := by
  cases emitted with
  | compute _ => simp
  | branch _ => simp
  | jump => simp
  | leave _ => simp
  | called _ _ _ _ _ _ _ calls =>
      rcases call_success calls with ⟨_, rfl, _⟩ | ⟨_, _, rfl, _⟩
      · simp
      · simp

theorem EmitsPlain.gotos
    (emitted : EmitsPlain program activation before instruction items after) :
    items.filterMap C.Item.goto? =
      (instruction.goto? activation.owner).toList := by
  cases emitted with
  | compute _ => rfl
  | branch _ => rfl
  | jump => rfl
  | leave left =>
      rcases Activation.leave_success left with ⟨owner, _, rfl⟩ | ⟨_, owner, rfl⟩
      · rw [owner]
        rfl
      · rw [owner]
        rfl
  | called _ _ _ _ _ _ _ calls =>
      rcases call_success calls with ⟨_, rfl, _⟩ | ⟨_, _, rfl, _⟩
      · rfl
      · simp [C.Item.goto?, Instruction.goto?, Function.comp_def]

theorem EmitsPlain.calls
    (emitted : EmitsPlain program activation before instruction items after) :
    items.filterMap C.Item.called? = (program.called? instruction).toList := by
  cases emitted with
  | compute _ => rfl
  | branch _ => rfl
  | jump => rfl
  | leave left =>
      rcases Activation.leave_success left with ⟨_, _, rfl⟩ | ⟨_, _, rfl⟩
      · rfl
      · rfl
  | called found named _ _ _ _ _ calls =>
      rw [Program.called?, found]
      rcases call_success calls with ⟨_, rfl, _⟩ | ⟨_, _, rfl, _⟩
      · simp [C.Item.called?, named]
      · simp [C.Item.called?, named, Function.comp_def]

end Plain

section Order

variable {program : Program} {dormant : List CalleeNumber}
  {activation : Activation} {before after : Usage} {lines : List Line}
  {items : List C.Item}

/-- The labels outside of expansions are those of the blocks. -/
theorem Emits.labels
    (emitted : Emits program dormant activation before lines items after) :
    items.filterMap C.Item.label? =
      (lines.filterMap Line.start?).map activation.label := by
  induction emitted with
  | nil => rfl
  | start _ induction =>
      rw [List.filterMap_cons, List.filterMap_cons, induction]
      rfl
  | plain here _ induction =>
      rw [List.filterMap_append, here.labels, induction]
      rfl
  | expanded _ _ _ _ _ _ _ _ _ _ _ induction =>
      rw [List.filterMap_cons, List.filterMap_cons, induction]
      rfl

theorem Emits.gotos
    (emitted : Emits program dormant activation before lines items after) :
    items.filterMap C.Item.goto? = (lines.filterMap Line.run?).filterMap
      (Instruction.goto? activation.owner) := by
  induction emitted with
  | nil => rfl
  | start _ induction =>
      rw [List.filterMap_cons, List.filterMap_cons, induction]
      rfl
  | @plain _ activation _ _ _ instruction _ _ _ here _ induction =>
      rw [List.filterMap_append, here.gotos, induction]
      cases goes : instruction.goto? activation.owner with
      | none => simp [Line.run?, goes]
      | some label => simp [Line.run?, goes]
  | expanded _ _ _ _ _ _ _ _ _ _ _ induction =>
      rw [List.filterMap_cons, List.filterMap_cons, induction]
      rfl

/-- The calls outside of expansions are those of the instructions. -/
theorem Emits.calls
    (emitted : Emits program dormant activation before lines items after) :
    items.filterMap C.Item.called? =
      (lines.filterMap Line.run?).filterMap program.called? := by
  induction emitted with
  | nil => rfl
  | start _ induction =>
      rw [List.filterMap_cons, List.filterMap_cons, induction]
      rfl
  | @plain _ _ _ _ _ instruction _ _ _ here _ induction =>
      rw [List.filterMap_append, here.calls, induction]
      cases calls : program.called? instruction with
      | none => simp [Line.run?, calls]
      | some symbol => simp [Line.run?, calls]
  | expanded found _ _ _ _ _ _ _ _ _ _ induction =>
      rw [List.filterMap_cons, List.filterMap_cons, induction]
      simp [Line.run?, Program.called?, found, Callee.symbol?, C.Item.called?]

/-- A block was emitted for an invocation. -/
inductive Expanded (program : Program) (activation : Activation)
    (before after : Usage) : List C.Item → Invocation → Prop where
  | mk {function : BodiedFunction} {dormant : List CalleeNumber}
      {args results : List RegisterNumber} {first last : Usage}
      {registers code : List C.Item}
      (argCount : args.length = function.type.params.length)
      (resultCount : results.length = function.type.results.length)
      (argsDeclared : activation.Declares args)
      (resultsDeclared : activation.Declares results)
      (earlier : before.Extends first)
      (valid : (expansionOf function first.expansions).validate program.types =
        .ok ())
      (declared : (expansionOf function first.expansions).declarations
        program.types = .ok registers)
      (inside : Emits program dormant (expansionOf function first.expansions)
        first.expanding function.body.lines code last)
      (later : last.Extends after) :
      Expanded program activation before after
        (expansionItems (expansionOf function first.expansions) first.expansions
          registers code (args.map activation.slot) (results.map activation.slot))
        ⟨function, args, results⟩

theorem Expanded.widen {first second third fourth : Usage} {block : List C.Item}
    {invocation : Invocation} (earlier : first.Extends second)
    (later : third.Extends fourth)
    (expanded : Expanded program activation second third block invocation) :
    Expanded program activation first fourth block invocation := by
  cases expanded with
  | mk argCount resultCount argsDeclared resultsDeclared before valid declared
      inside after =>
      exact .mk argCount resultCount argsDeclared resultsDeclared
        (earlier.trans before) valid declared inside (after.trans later)

/-- Nested blocks are the expansions of the inlined invocations. -/
theorem Emits.blocks
    (emitted : Emits program dormant activation before lines items after) :
    List.Forall₂ (Expanded program activation before after)
      (items.filterMap C.Item.block?)
      ((lines.filterMap Line.run?).filterMap program.invocation?) := by
  induction emitted with
  | nil => exact .nil
  | start _ induction => exact induction
  | @plain _ _ _ _ _ instruction lines _ _ here _ induction =>
      have runs : (Line.run instruction :: lines).filterMap Line.run? =
        instruction :: lines.filterMap Line.run? := rfl
      rw [List.filterMap_append, here.blocks, runs, List.filterMap_cons,
        here.invocation?_eq_none]
      apply induction.imp
      intro block invocation expanded
      exact expanded.widen here.extends (.refl _)
  | @expanded _ _ before between after number args results function _ _ lines items
      found argCount resultCount argsDeclared resultsDeclared allowed valid declared
      inside later _ induction =>
      have runs : (Line.run (.invoke number args results) :: lines).filterMap
        Line.run? = .invoke number args results :: lines.filterMap Line.run? := rfl
      have inlined : program.invocation? (.invoke number args results) =
          some ⟨function, args, results⟩ := by
        simp [Program.invocation?, found]
      rw [runs, List.filterMap_cons_some inlined]
      refine .cons (.mk argCount resultCount argsDeclared resultsDeclared (.refl _)
        valid declared inside later.extends) ?_
      apply induction.imp
      intro block other expanded
      exact expanded.widen ((Usage.extends_expanding _).trans inside.extends) (.refl _)

end Order

/-- Items that go on with something other than a declaration. -/
def Continues (items : List C.Item) : Prop :=
  ∃ next later, items = next :: later ∧ next.declared? = none

/-- Every label stands before another label or a statement. -/
def Placed : List C.Item → Prop
  | [] => True
  | .label _ :: later => Continues later ∧ Placed later
  | .declare _ :: later | .statement _ :: later | .emptyLabel _ :: later
  | .block _ :: later => Placed later

theorem Placed.after_label {front back : List C.Item} {label : C.Label}
    (placed : Placed (front ++ .label label :: back)) : Continues back := by
  induction front with
  | nil => exact placed.1
  | cons item front induction =>
      apply induction
      cases item with
      | label _ => exact placed.2
      | declare _ => exact placed
      | statement _ => exact placed
      | emptyLabel _ => exact placed
      | block _ => exact placed

/-- Items without such labels may stand anywhere. -/
theorem placed_append {left right : List C.Item}
    (unlabelled : ∀ item ∈ left, ∀ label, item ≠ .label label)
    (placed : Placed right) : Placed (left ++ right) := by
  induction left with
  | nil => exact placed
  | cons item left induction =>
      have later := induction fun other member =>
        unlabelled other (List.mem_cons_of_mem _ member)
      have here := unlabelled item List.mem_cons_self
      cases item with
      | label label => exact (here label rfl).elim
      | emptyLabel _ => exact later
      | declare _ => exact later
      | statement _ => exact later
      | block _ => exact later

section Placement

variable {program : Program} {dormant : List CalleeNumber}
  {activation : Activation} {before after : Usage} {lines : List Line}
  {items : List C.Item}

/-- Emitted code declares nothing outside of expansions. -/
theorem Emits.declared
    (emitted : Emits program dormant activation before lines items after) :
    ∀ item ∈ items, item.declared? = none := by
  intro item member
  induction emitted with
  | nil => cases member
  | start _ induction =>
      rcases List.mem_cons.mp member with rfl | later
      · rfl
      · exact induction later
  | plain here _ induction =>
      rcases List.mem_append.mp member with now | later
      · obtain ⟨statement, rfl⟩ := here.statement_of_mem now
        rfl
      · exact induction later
  | expanded _ _ _ _ _ _ _ _ _ _ _ induction =>
      rcases List.mem_cons.mp member with rfl | later
      · rfl
      · exact induction later

/-- Every line is emitted as something. -/
theorem Emits.present
    (emitted : Emits program dormant activation before lines items after)
    (some : lines ≠ []) : items ≠ [] := by
  cases emitted with
  | nil => exact (some rfl).elim
  | start _ => simp
  | plain here _ => simp [here.present]
  | expanded _ _ _ _ _ _ _ _ _ _ => simp

/-- Labels in emitted code are placed well, if something follows a block
that is empty and last. -/
theorem Emits.placed
    (emitted : Emits program dormant activation before lines items after)
    {more : List C.Item} (placed : Placed more)
    (continues : ∀ number, lines.getLast? = some (.start number) → Continues more) :
    Placed (items ++ more) := by
  induction emitted with
  | nil => exact placed
  | @start _ _ _ _ number lines items later induction =>
      by_cases none : lines = []
      · have follows := continues number (by simp [none])
        subst none
        cases later
        exact ⟨follows, placed⟩
      · constructor
        · obtain ⟨next, others, same⟩ :=
            List.exists_cons_of_ne_nil (later.present none)
          refine ⟨next, others ++ more, by rw [same]; rfl, ?_⟩
          exact later.declared next (same ▸ List.mem_cons_self)
        · apply induction
          intro other last
          apply continues other
          rw [List.getLast?_cons_of_ne_nil none]
          exact last
  | @plain _ _ _ _ _ _ lines _ _ here _ induction =>
      rw [List.append_assoc]
      apply placed_append
      · intro item member label same
        obtain ⟨statement, rfl⟩ := here.statement_of_mem member
        cases same
      · apply induction
        intro other last
        apply continues other
        rw [List.getLast?_cons_of_ne_nil (by intro none; simp [none] at last)]
        exact last
  | @expanded _ _ _ _ _ _ _ _ _ _ _ lines _ _ _ _ _ _ _ _ _ _ _ _ induction =>
      apply induction
      intro other last
      apply continues other
      rw [List.getLast?_cons_of_ne_nil (by intro none; simp [none] at last)]
      exact last

end Placement

end Lowering

/-- Whose label it is. -/
def C.Label.home : C.Label → C.Owner
  | .block owner _ => owner
  | .finish number => .expansion number

/-- Expansions lie inside of all owners with smaller ranks. -/
def C.Owner.rank : C.Owner → Nat
  | .function => 0
  | .expansion number => number + 1

namespace Lowering

theorem itemsLabels_eq_nil {items : List C.Item}
    (plain : ∀ item ∈ items, item.labels = []) : C.itemsLabels items = [] := by
  induction items with
  | nil => rfl
  | cons item items induction =>
      rw [C.itemsLabels, plain item List.mem_cons_self, List.nil_append]
      exact induction fun other member => plain other (List.mem_cons_of_mem _ member)

theorem EmitsPlain.itemsLabels {program : Program} {activation : Activation}
    {before after : Usage} {instruction : Instruction} {items : List C.Item}
    (emitted : EmitsPlain program activation before instruction items after) :
    C.itemsLabels items = [] := by
  apply itemsLabels_eq_nil
  intro item member
  obtain ⟨statement, rfl⟩ := emitted.statement_of_mem member
  rfl

theorem DeclaresNames.itemsLabels {items : List C.Item} {names : List String}
    (declares : DeclaresNames items names) : C.itemsLabels items = [] := by
  obtain ⟨declarations, rfl, _⟩ := declares
  apply itemsLabels_eq_nil
  intro item member
  obtain ⟨_, _, rfl⟩ := List.mem_map.mp member
  rfl

theorem itemsLabels_inputs (activation : Activation) (sources : List C.Variable) :
    C.itemsLabels (activation.inputs sources) = [] := by
  apply itemsLabels_eq_nil
  intro item member
  obtain ⟨_, _, rfl⟩ := List.mem_map.mp member
  rfl

theorem itemsLabels_outputs (activation : Activation) (targets : List C.Variable) :
    C.itemsLabels (activation.outputs targets) = [] := by
  apply itemsLabels_eq_nil
  intro item member
  obtain ⟨_, _, rfl⟩ := List.mem_map.mp member
  rfl

theorem itemsLabels_expansion {registers code : List C.Item} {names : List String}
    (declares : DeclaresNames registers names) (inner : Activation) (number : Nat)
    (sources targets : List C.Variable) :
    C.itemsLabels (expansionItems inner number registers code sources targets) =
      C.itemsLabels code ++ [.finish number] := by
  simp only [expansionItems, C.itemsLabels_append, declares.itemsLabels,
    itemsLabels_inputs, itemsLabels_outputs]
  simp [C.itemsLabels, C.Item.labels]

/-- The label of a block, or of an expansion with a number from an interval. -/
def Numbered (activation : Activation) (lines : List Line) (first last : Nat)
    (label : C.Label) : Prop :=
  (∃ number ∈ lines.filterMap Line.start?, label = activation.label number) ∨
    ∃ number, first ≤ number ∧ number < last ∧ label.home = .expansion number

/-- Labels inside of expansions are never those of the blocks around them. -/
theorem home_ne_owner {owner : C.Owner} {first number : Nat}
    (rank : owner.rank ≤ first) (inside : first ≤ number) :
    owner ≠ .expansion number := by
  intro same
  rw [same, C.Owner.rank] at rank
  omega

/-- All labels of an expansion have its number or a later one. -/
theorem Numbered.of_expansion {function : BodiedFunction} {lines : List Line}
    {number last : Nat} {code : List C.Item} (opened : number < last)
    (numbered : ∀ label ∈ C.itemsLabels code,
      Numbered (expansionOf function number) lines (number + 1) last label)
    {label : C.Label} (member : label ∈ C.itemsLabels code ++ [.finish number]) :
    ∃ inner, number ≤ inner ∧ inner < last ∧ label.home = .expansion inner := by
  rcases List.mem_append.mp member with inCode | finish
  · rcases numbered label inCode with ⟨_, _, rfl⟩ | ⟨inner, low, high, home⟩
    · exact ⟨number, Nat.le_refl _, opened, rfl⟩
    · exact ⟨inner, Nat.le_of_succ_le low, high, home⟩
  · rw [List.mem_singleton.mp finish]
    exact ⟨number, Nat.le_refl _, opened, rfl⟩

section Distinct

variable {program : Program} {dormant : List CalleeNumber}
  {activation : Activation} {before after : Usage} {lines : List Line}
  {items : List C.Item}

theorem Emits.itemsLabels_numbered
    (emitted : Emits program dormant activation before lines items after) :
    ∀ label ∈ C.itemsLabels items,
      Numbered activation lines before.expansions after.expansions label := by
  induction emitted with
  | nil => simp [C.itemsLabels]
  | start _ induction =>
      intro label member
      rcases List.mem_cons.mp member with rfl | later
      · exact .inl ⟨_, List.mem_cons_self, rfl⟩
      · rcases induction label later with ⟨number, started, same⟩ | numbered
        · exact .inl ⟨number, List.mem_cons_of_mem _ started, same⟩
        · exact .inr numbered
  | plain here _ induction =>
      intro label member
      rw [C.itemsLabels_append, here.itemsLabels, List.nil_append] at member
      rcases induction label member with started | ⟨number, low, high, home⟩
      · exact .inl started
      · exact .inr ⟨number, Nat.le_trans here.extends.expansions low, high, home⟩
  | expanded _ _ _ _ _ _ _ declared inside later induction inductionLater =>
      intro label member
      have opened := Nat.lt_of_succ_le inside.extends.expansions
      have grown := later.extends.expansions
      rw [C.itemsLabels, C.Item.labels,
        itemsLabels_expansion (declarations_names declared), List.mem_append] at member
      rcases member with here | afterwards
      · obtain ⟨number, low, high, home⟩ := Numbered.of_expansion opened induction here
        exact .inr ⟨number, low, Nat.lt_of_lt_of_le high grown, home⟩
      · rcases inductionLater label afterwards with started | ⟨number, low, high, home⟩
        · exact .inl started
        · refine .inr ⟨number, ?_, high, home⟩
          exact Nat.le_trans (Nat.le_of_lt opened) low

/-- No label is defined twice, neither in the code itself nor in any of its
expansions.  Labels of an expansion, of those nested in it and of what comes
later are numbered from three intervals that do not overlap. -/
theorem Emits.itemsLabels_nodup
    (emitted : Emits program dormant activation before lines items after)
    (rank : activation.owner.rank ≤ before.expansions)
    (starts : (lines.filterMap Line.start?).Nodup) :
    (C.itemsLabels items).Nodup := by
  induction emitted with
  | nil => exact List.nodup_nil
  | @start _ activation before _ number lines _ later induction =>
      obtain ⟨fresh, startsLater⟩ := List.nodup_cons.mp starts
      refine List.nodup_cons.mpr ⟨?_, induction rank startsLater⟩
      intro member
      rcases later.itemsLabels_numbered _ member with
        ⟨other, started, same⟩ | ⟨inner, low, _, home⟩
      · cases same
        exact fresh started
      · exact home_ne_owner rank low home
  | plain here _ induction =>
      rw [C.itemsLabels_append, here.itemsLabels, List.nil_append]
      exact induction (Nat.le_trans rank here.extends.expansions) starts
  | @expanded _ activation before between _ _ _ _ function _ code lines items _ _ _ _ _
      _ _ declared inside later induction inductionLater =>
      have opened := Nat.lt_of_succ_le inside.extends.expansions
      have bodyStarts : (function.body.lines.filterMap Line.start?).Nodup := by
        rw [Body.lines, linesFrom_starts]
        exact List.nodup_range'
      have numbered := inside.itemsLabels_numbered
      rw [C.itemsLabels, C.Item.labels,
        itemsLabels_expansion (declarations_names declared), List.nodup_append]
      refine ⟨?_, ?_, ?_⟩
      · rw [List.nodup_append]
        refine ⟨induction (Nat.le_refl _) bodyStarts, by simp, ?_⟩
        intro label inCode finish isFinish same
        rw [List.mem_singleton.mp isFinish] at same
        rw [same] at inCode
        rcases numbered _ inCode with ⟨_, _, impossible⟩ | ⟨inner, low, _, home⟩
        · cases impossible
        · cases home
          exact Nat.not_succ_le_self _ low
      · refine inductionLater (Nat.le_trans rank ?_) starts
        exact Nat.le_of_lt opened
      · intro label here other afterwards same
        rw [← same] at afterwards
        obtain ⟨inner, low, high, home⟩ := Numbered.of_expansion opened numbered here
        rcases later.itemsLabels_numbered _ afterwards with
          ⟨number, _, rfl⟩ | ⟨outer, lowOuter, _, homeOuter⟩
        · exact home_ne_owner rank low home
        · rw [home] at homeOuter
          cases homeOuter
          exact Nat.lt_irrefl _ (Nat.lt_of_lt_of_le high lowOuter)

end Distinct

end Lowering

end CBackend
