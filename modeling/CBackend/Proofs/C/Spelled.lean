import CBackend.C.File
import CBackend.Proofs.C.Tokens

/-!
# Definitions as they are spelled

C knows variables and labels by their spelling alone.  A spelled definition
has texts in the place of structured names, and this is all that a written
definition shows.

Statements are written with blanks around every sign that could run together
with another one, each item on a line of its own.  So the tokens of a written
source can be read off from the spelled one.
-/

namespace CBackend.C

namespace Spelled

inductive Statement where
  | move (target source : String)
  | compute (target left : String) (operator : Operator) (right : String)
  | branch (left : String) (test : Comparison) (right target : String)
  | goto (target : String)
  | call (target : Option String) (symbol : String) (args : List String)
  | leave (value : Option String)
deriving DecidableEq, Repr

inductive Item where
  | declare (declaration : Declaration)
  | statement (statement : Statement)
  | label (name : String)
  /-- A label with an empty statement of its own. -/
  | emptyLabel (name : String)
  | block (items : List Item)

structure Definition where
  head : Declaration
  items : List Item

structure Source where
  linked : List Declaration
  definitions : List Definition

end Spelled

def Statement.spelled : Statement → Spelled.Statement
  | .move target source => .move target.text source.text
  | .compute target left operator right =>
    .compute target.text left.text operator right.text
  | .branch left test right target => .branch left.text test right.text target.text
  | .goto target => .goto target.text
  | .call target symbol args =>
    .call (target.map Variable.text) symbol (args.map Variable.text)
  | .leave value => .leave (value.map Variable.text)

mutual

def Item.spelled : Item → Spelled.Item
  | .declare declaration => .declare declaration
  | .statement statement => .statement statement.spelled
  | .label label => .label label.text
  | .emptyLabel label => .emptyLabel label.text
  | .block items => .block (spelledItems items)

def spelledItems : List Item → List Spelled.Item
  | [] => []
  | item :: later => item.spelled :: spelledItems later

end

theorem spelledItems_eq_map (items : List Item) :
    spelledItems items = items.map Item.spelled := by
  induction items with
  | nil => rfl
  | cons item later induction => rw [spelledItems, induction, List.map_cons]

def Definition.spelled (definition : Definition) : Spelled.Definition :=
  ⟨definition.head, spelledItems definition.items⟩

def Source.spelled (source : Source) : Spelled.Source :=
  ⟨source.linked, source.definitions.map Definition.spelled⟩

namespace Spelled

def testToken : Comparison → Token
  | .equal => .paired '='
  | .notEqual => .paired '!'
  | .atMost => .paired '<'
  | .below => .sign '<'

def operatorToken : Operator → Token
  | .plus => .sign '+'
  | .minus => .sign '-'
  | .times => .sign '*'
  | .over => .sign '/'

/-- Arguments with commas between them. -/
def argsTokens : List String → List Token
  | [] => []
  | [last] => [.word last]
  | arg :: later => .word arg :: .sign ',' :: argsTokens later

/-- The variable that a result is assigned to, if there is one. -/
def assignedTokens : Option String → List Token
  | none => []
  | some target => [.word target, .sign '=']

def Statement.tokens : Statement → List Token
  | .move target source => [.word target, .sign '=', .word source, .sign ';']
  | .compute target left operator right =>
    [.word target, .sign '=', .word left, operatorToken operator, .word right, .sign ';']
  | .branch left test right target =>
    [.word "if", .sign '(', .word left, testToken test, .word right, .sign ')',
      .word "goto", .word target, .sign ';']
  | .goto target => [.word "goto", .word target, .sign ';']
  | .call target symbol args =>
    assignedTokens target ++
      .word symbol :: .sign '(' :: (argsTokens args ++ [.sign ')', .sign ';'])
  | .leave none => [.word "return", .sign ';']
  | .leave (some value) => [.word "return", .word value, .sign ';']

mutual

def Item.tokens : Item → List Token
  | .declare declaration => declaration.tokens ++ [.sign ';']
  | .statement statement => statement.tokens
  | .label name => [.word name, .sign ':']
  | .emptyLabel name => [.word name, .sign ':', .sign ';']
  | .block items => .sign '\x7b' :: (itemsTokens items ++ [.sign '\x7d'])

def itemsTokens : List Item → List Token
  | [] => []
  | item :: later => item.tokens ++ itemsTokens later

end

def Definition.tokens (definition : Definition) : List Token :=
  definition.head.tokens ++
    .sign '\x7b' :: (itemsTokens definition.items ++ [.sign '\x7d'])

def linkedTokens : List Declaration → List Token
  | [] => []
  | prototype :: later =>
    .word "extern" :: (prototype.tokens ++ .sign ';' :: linkedTokens later)

def definitionsTokens : List Definition → List Token
  | [] => []
  | definition :: later => definition.tokens ++ definitionsTokens later

def Source.tokens (source : Source) : List Token :=
  linkedTokens source.linked ++ definitionsTokens source.definitions

/-- All names in a statement. -/
def Statement.names : Statement → List String
  | .move target source => [target, source]
  | .compute target left _ right => [target, left, right]
  | .branch left _ right target => [left, right, target]
  | .goto target => [target]
  | .call target symbol args => target.toList ++ symbol :: args
  | .leave value => value.toList

def Statement.Legible (statement : Statement) : Prop :=
  ∀ name ∈ statement.names, isIdentifier name = true

mutual

/-- Names are identifiers, and every declaration declares one. -/
def Item.Legible : Item → Prop
  | .declare declaration =>
    declaration.Legible ∧ isIdentifier declaration.declarator.declared = true
  | .statement statement => statement.Legible
  | .label name | .emptyLabel name => isIdentifier name = true
  | .block items => AllLegible items

def AllLegible : List Item → Prop
  | [] => True
  | item :: later => item.Legible ∧ AllLegible later

end

theorem allLegible_iff {items : List Item} :
    AllLegible items ↔ ∀ item ∈ items, item.Legible := by
  induction items with
  | nil => simp [AllLegible]
  | cons item later induction => simp [AllLegible, induction]

structure Definition.Legible (definition : Definition) : Prop where
  head : definition.head.Legible
  items : AllLegible definition.items

structure Source.Legible (source : Source) : Prop where
  linked : ∀ prototype ∈ source.linked, prototype.Legible
  definitions : ∀ definition ∈ source.definitions, definition.Legible

end Spelled

open Spelled (testToken operatorToken argsTokens assignedTokens itemsTokens linkedTokens
  definitionsTokens)

theorem scan_before_blank {text : String} (word : IsWord text) (rest : List Char) :
    scan [] (text.toList ++ ' ' :: rest) = .word text :: scan [] rest := by
  rw [scan_word word (delimited_blank _), scan_blank]

theorem scan_before_sign {text : String} (word : IsWord text) {sign : Char}
    (isSign : sign ∈ signs) (rest : List Char) :
    scan [] (text.toList ++ sign :: rest) = .word text :: .sign sign :: scan [] rest := by
  rw [scan_word word (delimited_of_sign isSign _), scan_sign isSign]

/-- What is assigned comes behind a variable and the sign `=`. -/
theorem scan_assigned {target : String} (word : IsWord target) (rest : List Char) :
    scan [] (target.toList ++ ' ' :: '=' :: ' ' :: rest) =
      .word target :: .sign '=' :: scan [] rest := by
  rw [scan_before_blank word, scan_spaced (by decide)]

theorem scan_operator (operator : Operator) (rest : List Char) :
    scan [] ((operatorSign operator).toList ++ rest) =
      operatorToken operator :: scan [] rest := by
  cases operator <;> exact scan_sign (by decide) rest

theorem scan_test (test : Comparison) (rest : List Char) :
    scan [] ((testSign test).toList ++ ' ' :: rest) = testToken test :: scan [] rest := by
  rw [← scan_blank rest]
  cases test with
  | equal => exact scan_paired (by decide) _
  | notEqual => exact scan_paired (by decide) _
  | atMost => exact scan_paired (by decide) _
  | below =>
      rw [scan_blank]
      exact scan_spaced (by decide) rest

theorem scan_args {args : List String} (words : ∀ arg ∈ args, IsWord arg) {rest : List Char}
    (delimited : Delimited rest) :
    scan [] ((", ".intercalate args).toList ++ rest) = argsTokens args ++ scan [] rest := by
  induction args with
  | nil => rfl
  | cons arg later induction =>
      have word := words arg List.mem_cons_self
      cases later with
      | nil =>
          rw [String.intercalate_singleton, scan_word word delimited]
          rfl
      | cons next later =>
          have split : (", ".intercalate (arg :: next :: later)).toList ++ rest =
              arg.toList ++ ',' :: ' ' ::
                ((", ".intercalate (next :: later)).toList ++ rest) := by
            rw [String.intercalate_cons_cons]
            simp only [String.toList_append, List.append_assoc]
            rfl
          rw [split, scan_before_sign word (by decide), scan_blank,
            induction fun other member => words other (List.mem_cons_of_mem _ member)]
          rfl

/-- A call without the variable that its result is assigned to. -/
theorem scan_call {symbol : String} {args : List String} (callable : IsWord symbol)
    (words : ∀ arg ∈ args, IsWord arg) (rest : List Char) :
    scan [] ((symbol ++ "(" ++ ", ".intercalate args ++ ");").toList ++ rest) =
      .word symbol :: .sign '(' :: (argsTokens args ++
        .sign ')' :: .sign ';' :: scan [] rest) := by
  have split : (symbol ++ "(" ++ ", ".intercalate args ++ ");").toList ++ rest =
      symbol.toList ++ '(' :: ((", ".intercalate args).toList ++ ')' :: ';' :: rest) := by
    simp only [String.toList_append, List.append_assoc]
    rfl
  rw [split, scan_before_sign callable (by decide),
    scan_args words (delimited_of_sign (by decide) _), scan_sign (by decide),
    scan_sign (by decide)]

theorem Statement.scan_text {statement : Statement} (legible : statement.spelled.Legible)
    (rest : List Char) :
    scan [] (statement.text.toList ++ rest) =
      statement.spelled.tokens ++ scan [] rest := by
  have words : ∀ name ∈ statement.spelled.names, IsWord name := by
    intro name member
    exact isWord_of_isIdentifier (legible name member)
  cases statement with
  | move target source =>
      have split : (Statement.move target source).text.toList ++ rest =
          target.text.toList ++ ' ' :: '=' :: ' ' :: (source.text.toList ++ ';' :: rest) := by
        simp [Statement.text]
      rw [split, scan_assigned (words _ (.head _)),
        scan_before_sign (words _ (.tail _ (.head _))) (by decide)]
      rfl
  | compute target left operator right =>
      have split : (Statement.compute target left operator right).text.toList ++ rest =
          target.text.toList ++ ' ' :: '=' :: ' ' :: (left.text.toList ++ ' ' ::
            ((operatorSign operator).toList ++ ' ' :: (right.text.toList ++ ';' :: rest))) := by
        simp [Statement.text]
      rw [split, scan_assigned (words _ (.head _)),
        scan_before_blank (words _ (.tail _ (.head _))), scan_operator, scan_blank,
        scan_before_sign (words _ (.tail _ (.tail _ (.head _)))) (by decide)]
      rfl
  | branch left test right target =>
      have split : (Statement.branch left test right target).text.toList ++ rest =
          "if".toList ++ ' ' :: '(' :: (left.text.toList ++ ' ' ::
            ((testSign test).toList ++ ' ' :: (right.text.toList ++ ')' :: ' ' ::
              ("goto".toList ++ ' ' :: (target.text.toList ++ ';' :: rest))))) := by
        simp [Statement.text]
      rw [split, scan_before_blank (isWord_of_all (by decide)), scan_sign (by decide),
        scan_before_blank (words _ (.head _)), scan_test,
        scan_before_sign (words _ (.tail _ (.head _))) (by decide), scan_blank,
        scan_before_blank (isWord_of_all (by decide)),
        scan_before_sign (words _ (.tail _ (.tail _ (.head _)))) (by decide)]
      rfl
  | goto target =>
      have split : (Statement.goto target).text.toList ++ rest =
          "goto".toList ++ ' ' :: (target.text.toList ++ ';' :: rest) := by
        simp [Statement.text]
      rw [split, scan_before_blank (isWord_of_all (by decide)),
        scan_before_sign (words _ (.head _)) (by decide)]
      rfl
  | call target symbol args =>
      cases target with
      | none =>
          have whole : (Statement.call none symbol args).text =
              symbol ++ "(" ++ ", ".intercalate (args.map Variable.text) ++ ");" := by
            simp [Statement.text]
          rw [whole, scan_call (words _ (.head _)) fun _ member => words _ (.tail _ member)]
          simp [Statement.spelled, Spelled.Statement.tokens, assignedTokens]
      | some target =>
          have split : (Statement.call (some target) symbol args).text.toList ++ rest =
              target.text.toList ++ ' ' :: '=' :: ' ' :: ((symbol ++ "(" ++
                ", ".intercalate (args.map Variable.text) ++ ");").toList ++ rest) := by
            simp only [Statement.text, String.toList_append, List.append_assoc]
            rfl
          rw [split, scan_assigned (words _ (.head _)), scan_call (words _ (.tail _ (.head _)))
            fun _ member => words _ (.tail _ (.tail _ member))]
          simp [Statement.spelled, Spelled.Statement.tokens, assignedTokens]
  | leave value =>
      cases value with
      | none =>
          have split : (Statement.leave none).text.toList ++ rest =
              "return".toList ++ ';' :: rest := by
            simp [Statement.text]
          rw [split, scan_before_sign (isWord_of_all (by decide)) (by decide)]
          rfl
      | some value =>
          have split : (Statement.leave (some value)).text.toList ++ rest =
              "return".toList ++ ' ' :: (value.text.toList ++ ';' :: rest) := by
            simp [Statement.text]
          rw [split, scan_before_blank (isWord_of_all (by decide)),
            scan_before_sign (words _ (.head _)) (by decide)]
          rfl

/-- The depth of a line leaves no trace. -/
theorem scan_indented (depth : Nat) (line : String) (rest : List Char) :
    scan [] ((indented depth line).toList ++ rest) = scan [] (line.toList ++ '\n' :: rest) := by
  induction depth with
  | zero => simp [indented]
  | succ depth induction =>
      have split : (indented (depth + 1) line).toList ++ rest =
          ' ' :: ' ' :: ' ' :: ' ' :: ((indented depth line).toList ++ rest) := by
        simp [indented, List.replicate_succ]
      rw [split, scan_blank, scan_blank, scan_blank, scan_blank, induction]

mutual

theorem Item.scan_text (item : Item) (legible : item.spelled.Legible) (depth : Nat)
    (rest : List Char) :
    scan [] ((item.text depth).toList ++ rest) = item.spelled.tokens ++ scan [] rest := by
  cases item with
  | declare declaration =>
      have split : (declaration.text ++ ";").toList ++ '\n' :: rest =
          declaration.text.toList ++ ';' :: '\n' :: rest := by
        simp
      rw [Item.text, scan_indented, split,
        declaration.scan_text legible.1 (delimited_of_sign (by decide) _),
        scan_sign (by decide), scan_line]
      simp [Item.spelled, Spelled.Item.tokens]
  | statement statement =>
      rw [Item.text, scan_indented, Statement.scan_text legible, scan_line]
      rfl
  | label label =>
      have split : (label.text ++ ":").toList ++ '\n' :: rest =
          label.text.toList ++ ':' :: '\n' :: rest := by
        simp
      rw [Item.text, scan_indented, split,
        scan_before_sign (isWord_of_isIdentifier legible) (by decide), scan_line]
      rfl
  | emptyLabel label =>
      have split : (label.text ++ ":;").toList ++ '\n' :: rest =
          label.text.toList ++ ':' :: ';' :: '\n' :: rest := by
        simp
      rw [Item.text, scan_indented, split,
        scan_before_sign (isWord_of_isIdentifier legible) (by decide),
        scan_sign (by decide), scan_line]
      rfl
  | block items =>
      have split : (Item.text depth (.block items)).toList ++ rest =
          (indented depth "\x7b").toList ++ ((itemsText (depth + 1) items).toList ++
            ((indented depth "\x7d").toList ++ rest)) := by
        simp [Item.text]
      have opens : ∀ rest, scan [] ("\x7b".toList ++ '\n' :: rest) =
          .sign '\x7b' :: scan [] rest := by
        intro rest
        rw [← scan_line rest]
        exact scan_sign (by decide) _
      have closes : scan [] ("\x7d".toList ++ '\n' :: rest) =
          .sign '\x7d' :: scan [] rest := by
        rw [← scan_line rest]
        exact scan_sign (by decide) _
      rw [split, scan_indented, opens, items_scan_text items legible, scan_indented, closes]
      simp [Item.spelled, Spelled.Item.tokens]

theorem items_scan_text (items : List Item)
    (legible : Spelled.AllLegible (spelledItems items)) (depth : Nat) (rest : List Char) :
    scan [] ((itemsText depth items).toList ++ rest) =
      itemsTokens (spelledItems items) ++ scan [] rest := by
  cases items with
  | nil => rfl
  | cons item later =>
      rw [itemsText, String.toList_append, List.append_assoc,
        Item.scan_text item legible.1, items_scan_text later legible.2]
      simp [spelledItems, itemsTokens]

end

theorem Definition.scan_text {definition : Definition} (legible : definition.spelled.Legible)
    (rest : List Char) :
    scan [] (definition.text.toList ++ rest) =
      definition.spelled.tokens ++ scan [] rest := by
  have split : definition.text.toList ++ rest = definition.head.text.toList ++ ' ' ::
      '\x7b' :: '\n' :: ((itemsText 1 definition.items).toList ++ '\x7d' :: '\n' :: rest) := by
    simp [Definition.text]
  rw [split, definition.head.scan_text legible.head (delimited_blank _), scan_blank,
    scan_sign (by decide), scan_line, items_scan_text _ legible.items, scan_sign (by decide),
    scan_line]
  simp [Definition.spelled, Spelled.Definition.tokens]

theorem linked_scan_text {linked : List Declaration}
    (legible : ∀ prototype ∈ linked, prototype.Legible) (rest : List Char) :
    scan [] ((String.join (linked.map fun prototype =>
      "extern " ++ prototype.text ++ ";\n")).toList ++ rest) =
        linkedTokens linked ++ scan [] rest := by
  induction linked with
  | nil => rfl
  | cons prototype later induction =>
      have split : (String.join ((prototype :: later).map fun prototype =>
          "extern " ++ prototype.text ++ ";\n")).toList ++ rest =
            "extern".toList ++ ' ' :: (prototype.text.toList ++ ';' :: '\n' ::
              ((String.join (later.map fun prototype =>
                "extern " ++ prototype.text ++ ";\n")).toList ++ rest)) := by
        simp
      rw [split, scan_before_blank (isWord_of_all (by decide)),
        prototype.scan_text (legible _ List.mem_cons_self) (delimited_of_sign (by decide) _),
        scan_sign (by decide), scan_line,
        induction fun other member => legible other (List.mem_cons_of_mem _ member)]
      simp [linkedTokens]

theorem definitions_scan_text {definitions : List Definition}
    (legible : ∀ definition ∈ definitions, definition.spelled.Legible) :
    scan [] ("\n".intercalate (definitions.map Definition.text)).toList =
      definitionsTokens (definitions.map Definition.spelled) := by
  induction definitions with
  | nil => rfl
  | cons definition later induction =>
      have here := Definition.scan_text (legible _ List.mem_cons_self)
      have afterwards := induction fun other member =>
        legible other (List.mem_cons_of_mem _ member)
      cases later with
      | nil =>
          have alone := here []
          rw [List.append_nil] at alone
          exact alone
      | cons next later =>
          have split : ("\n".intercalate ((definition :: next :: later).map
              Definition.text)).toList = definition.text.toList ++ '\n' ::
                ("\n".intercalate ((next :: later).map Definition.text)).toList := by
            rw [List.map_cons, List.map_cons, String.intercalate_cons_cons]
            simp only [String.toList_append, List.append_assoc]
            rfl
          rw [split, here, scan_line, afterwards]
          rfl

/-- The tokens of a written source are those of the spelled one. -/
theorem Source.tokensOf_text {source : Source} (legible : source.spelled.Legible) :
    tokensOf source.text = source.spelled.tokens := by
  have definitionsLegible : ∀ definition ∈ source.definitions,
      definition.spelled.Legible := by
    intro definition member
    exact legible.definitions _ (List.mem_map.mpr ⟨definition, member, rfl⟩)
  have linkedLegible : ∀ prototype ∈ source.linked, prototype.Legible := legible.linked
  have linked := linked_scan_text linkedLegible
  have definitions := definitions_scan_text definitionsLegible
  rw [tokensOf, Source.text]
  split
  · rw [String.toList_append, linked, definitions]
    rfl
  · rw [String.toList_append, String.toList_append, List.append_assoc, linked]
    exact congrArg _ ((scan_line _).trans definitions)

end CBackend.C
