import CBackend.Proofs.C.Reading
import CBackend.Proofs.C.Spelled

/-!
# Reading sources

The grammar of C sources, as far as generated texts use it.  A source is a
list of external prototypes and then of definitions, and a definition is a
declaration with a body in braces.  Three keywords begin a statement of their
own.  Any other word is a label before a colon and a variable before `=`.
Before a parenthesis it is the symbol of a call, unless a `*` shows that the
parenthesis groups a declarator, and everything else is a declaration.

A written source is read back as it is spelled.  So whatever holds of the
spelled source holds of its text.
-/

namespace CBackend.C

namespace Spelled

def readTest? : Token → Option Comparison
  | .paired '=' => some .equal
  | .paired '!' => some .notEqual
  | .paired '<' => some .atMost
  | .sign '<' => some .below
  | _ => none

def readOperator? : Token → Option Operator
  | .sign '+' => some .plus
  | .sign '-' => some .minus
  | .sign '*' => some .times
  | .sign '/' => some .over
  | _ => none

/-- One or more arguments up to the closing parenthesis. -/
def readArgs : List Token → Option (List String × List Token)
  | .word arg :: .sign ',' :: rest => do
    let (later, rest) ← readArgs rest
    return (arg :: later, rest)
  | .word arg :: .sign ')' :: rest => some ([arg], rest)
  | _ => none

/-- A call behind its opening parenthesis. -/
def readCall (target : Option String) (symbol : String) :
    List Token → Option (Statement × List Token)
  | .sign ')' :: rest => some (.call target symbol [], rest)
  | tokens => do
    let (args, rest) ← readArgs tokens
    return (.call target symbol args, rest)

/-- What is assigned, behind the sign `=`. -/
def readAssigned (target : String) : List Token → Option (Statement × List Token)
  | .word source :: .sign ';' :: rest => some (.move target source, .sign ';' :: rest)
  | .word symbol :: .sign '(' :: rest => readCall (some target) symbol rest
  | .word left :: sign :: .word right :: rest => do
    return (.compute target left (← readOperator? sign) right, rest)
  | _ => none

/-- A conditional goto behind its keyword. -/
def readBranch : List Token → Option (Statement × List Token)
  | .sign '(' :: .word left :: sign :: .word right :: .sign ')' :: .word "goto" ::
      .word target :: rest => do
    return (.branch left (← readTest? sign) right target, rest)
  | _ => none

def readGoto : List Token → Option (Statement × List Token)
  | .word target :: rest => some (.goto target, rest)
  | _ => none

def readReturn : List Token → Option (Statement × List Token)
  | .word value :: rest => some (.leave (some value), rest)
  | rest => some (.leave none, rest)

/-- A statement up to its semicolon. -/
def closed (part : Option (Statement × List Token)) : Option (Item × List Token) := do
  let (statement, rest) ← upTo ';' part
  return (.statement statement, rest)

def readDeclared (tokens : List Token) : Option (Item × List Token) := do
  let (declaration, rest) ← upTo ';' (readDeclaration tokens)
  return (.declare declaration, rest)

/-- An item that begins with a word other than a keyword for statements. -/
def readNamed (word : String) : List Token → Option (Item × List Token)
  | .sign ':' :: .sign ';' :: rest => some (.emptyLabel word, rest)
  | .sign ':' :: rest => some (.label word, rest)
  | .sign '=' :: rest => closed (readAssigned word rest)
  | .sign '(' :: .sign '*' :: rest =>
    readDeclared (.word word :: .sign '(' :: .sign '*' :: rest)
  | .sign '(' :: rest => closed (readCall none word rest)
  | rest => readDeclared (.word word :: rest)

def readLine (word : String) (rest : List Token) : Option (Item × List Token) :=
  if word = "if" then closed (readBranch rest)
  else if word = "goto" then closed (readGoto rest)
  else if word = "return" then closed (readReturn rest)
  else readNamed word rest

mutual

def readItem (tokens : List Token) : Option (Item × List Token) :=
  match tokens with
  | .sign '\x7b' :: rest => do
    let (items, rest) ← readItems rest
    return (.block items, rest)
  | .word word :: rest => readLine word rest
  | _ => none
termination_by (tokens.length, 0)

/-- Items up to the closing brace. -/
def readItems (tokens : List Token) : Option (List Item × List Token) :=
  match tokens with
  | .sign '\x7d' :: rest => some ([], rest)
  | tokens => proceed tokens (readItem tokens) fun item rest _ => do
    let (later, rest) ← readItems rest
    return (item :: later, rest)
termination_by (tokens.length, 1)

end

def readDefinition (tokens : List Token) : Option (Definition × List Token) := do
  let (head, rest) ← upTo '\x7b' (readDeclaration tokens)
  let (items, rest) ← readItems rest
  return (⟨head, items⟩, rest)

def readDefinitions (tokens : List Token) : Option (List Definition) :=
  match tokens with
  | [] => some []
  | tokens => proceed tokens (readDefinition tokens) fun definition rest _ => do
    return definition :: (← readDefinitions rest)
termination_by tokens.length

def readSource (tokens : List Token) : Option Source :=
  match tokens with
  | .word "extern" :: rest =>
    proceed (.word "extern" :: rest) (upTo ';' (readDeclaration rest))
      fun prototype rest _shorter => do
        let source ← readSource rest
        return { source with linked := prototype :: source.linked }
  | tokens => do return ⟨[], ← readDefinitions tokens⟩
termination_by tokens.length
decreasing_by exact _shorter

/-- The source that a whole text spells. -/
def Source.ofText? (text : String) : Option Source := readSource (tokensOf text)

theorem readArgs_tokens (arg : String) (later : List String) (rest : List Token) :
    readArgs (argsTokens (arg :: later) ++ .sign ')' :: rest) = some (arg :: later, rest) := by
  induction later generalizing arg with
  | nil => rfl
  | cons next later induction =>
      rw [argsTokens, List.cons_append, List.cons_append, readArgs, induction]
      · rfl
      · simp

theorem readCall_tokens (target : Option String) (symbol : String) (args : List String)
    (rest : List Token) :
    readCall target symbol (argsTokens args ++ .sign ')' :: rest) =
      some (.call target symbol args, rest) := by
  cases args with
  | nil => rfl
  | cons arg later =>
      rw [readCall, readArgs_tokens]
      · rfl
      · intro rest same
        cases later <;> cases same

theorem readAssigned_compute (target left : String) (operator : Operator) (right : String)
    (rest : List Token) :
    readAssigned target (.word left :: operatorToken operator :: .word right :: rest) =
      some (.compute target left operator right, rest) := by
  cases operator <;> rfl

theorem readBranch_test (left : String) (test : Comparison) (right target : String)
    (rest : List Token) :
    readBranch (.sign '(' :: .word left :: testToken test :: .word right :: .sign ')' ::
      .word "goto" :: .word target :: rest) = some (.branch left test right target, rest) := by
  cases test <;> rfl

theorem closed_some (statement : Statement) (rest : List Token) :
    closed (some (statement, .sign ';' :: rest)) = some (.statement statement, rest) :=
  rfl

theorem identifier_ne_keyword {name keyword : String} (identifier : isIdentifier name = true)
    (isKeyword : keyword ∈ Parameters.keywords) : name ≠ keyword := by
  rintro rfl
  unfold isIdentifier at identifier
  split at identifier
  · cases identifier
  · simp [isKeyword] at identifier

/-- An identifier begins none of the keyword statements. -/
theorem readLine_identifier {name : String} (identifier : isIdentifier name = true)
    (rest : List Token) : readLine name rest = readNamed name rest := by
  rw [readLine, if_neg (identifier_ne_keyword identifier (by decide)),
    if_neg (identifier_ne_keyword identifier (by decide)),
    if_neg (identifier_ne_keyword identifier (by decide))]

theorem readLine_statement {statement : Statement} (legible : statement.Legible)
    (rest : List Token) :
    ∃ word later, statement.tokens ++ rest = .word word :: later ∧
      readLine word later = some (.statement statement, rest) := by
  cases statement with
  | move target source =>
      refine ⟨_, _, rfl, ?_⟩
      rw [readLine_identifier (legible _ (.head _))]
      rfl
  | compute target left operator right =>
      refine ⟨_, _, rfl, ?_⟩
      rw [readLine_identifier (legible _ (.head _))]
      exact congrArg closed (readAssigned_compute target left operator right _)
  | branch left test right target =>
      exact ⟨_, _, rfl, congrArg closed (readBranch_test left test right target _)⟩
  | goto target => exact ⟨_, _, rfl, rfl⟩
  | call target symbol args =>
      have call := readCall_tokens target symbol args (.sign ';' :: rest)
      cases target with
      | none =>
          refine ⟨symbol, .sign '(' :: (argsTokens args ++ .sign ')' :: .sign ';' :: rest),
            by simp [Statement.tokens, assignedTokens], ?_⟩
          rw [readLine_identifier (legible _ (.head _)), readNamed, call, closed_some]
          intro later same
          cases args with
          | nil => cases same
          | cons arg args => cases args <;> cases same
      | some target =>
          refine ⟨target, .sign '=' :: .word symbol :: .sign '(' ::
            (argsTokens args ++ .sign ')' :: .sign ';' :: rest),
            by simp [Statement.tokens, assignedTokens], ?_⟩
          rw [readLine_identifier (legible _ (.head _)), readNamed, readAssigned, call,
            closed_some]
  | leave value =>
      cases value with
      | none => exact ⟨_, _, rfl, rfl⟩
      | some value => exact ⟨_, _, rfl, rfl⟩

/-- What a declarator begins with that declares something. -/
inductive Opens : List Token → Prop where
  | name (text : String) (rest : List Token) : Opens (.word text :: rest)
  | pointer (rest : List Token) : Opens (.sign '*' :: rest)
  | group (rest : List Token) : Opens (.sign '(' :: .sign '*' :: rest)

theorem opens_declarator (declarator : Declarator) (legible : declarator.Legible)
    (named : isIdentifier declarator.declared = true) (rest : List Token) :
    Opens (declarator.tokens ++ rest) := by
  cases declarator with
  | name text =>
      have present : text ≠ "" := by
        rintro rfl
        cases named
      rw [Declarator.tokens, if_neg present]
      exact .name text rest
  | pointer inner => exact .pointer _
  | group inner =>
      cases inner with
      | pointer inner => exact .group _
      | name _ => cases legible.1
      | group _ => cases legible.1
      | array _ _ => cases legible.1
      | function _ _ => cases legible.1
  | array inner dimension =>
      rw [Declarator.tokens, List.append_assoc]
      exact opens_declarator inner legible.2 named _
  | function inner params =>
      rw [Declarator.tokens, List.append_assoc]
      exact opens_declarator inner legible.2.1 named _

theorem readNamed_opens (word : String) {rest : List Token} (opens : Opens rest) :
    readNamed word rest = readDeclared (.word word :: rest) := by
  cases opens with
  | name => rfl
  | pointer => rfl
  | group => rfl

theorem typeWord_not_keyword {name : String} (member : name ∈ BasicCode.cNames) :
    name ≠ "if" ∧ name ≠ "goto" ∧ name ≠ "return" := by
  have all : ∀ name ∈ BasicCode.cNames,
      name ≠ "if" ∧ name ≠ "goto" ∧ name ≠ "return" := by decide +kernel
  exact all name member

/-- A declaration begins with a word for its type, and goes on in a way that
no other item does. -/
theorem readLine_declaration {declaration : Declaration} (legible : declaration.Legible)
    (named : isIdentifier declaration.declarator.declared = true) (rest : List Token) :
    ∃ word later, declaration.tokens ++ rest = .word word :: later ∧
      readLine word later = readDeclared (declaration.tokens ++ rest) := by
  obtain ⟨specifier, declarator⟩ := declaration
  have opens := opens_declarator declarator legible.2.1 named rest
  cases specifier with
  | void => exact ⟨_, _, rfl, readNamed_opens "void" opens⟩
  | named name =>
      obtain ⟨notIf, notGoto, notReturn⟩ := typeWord_not_keyword legible.1
      refine ⟨_, _, rfl, ?_⟩
      rw [readLine, if_neg notIf, if_neg notGoto, if_neg notReturn]
      exact readNamed_opens name opens
  | tagged tag => exact ⟨_, _, rfl, rfl⟩
  | anonymous members => exact ⟨_, _, rfl, rfl⟩

theorem readDeclared_tokens {declaration : Declaration} (legible : declaration.Legible)
    (rest : List Token) :
    readDeclared (declaration.tokens ++ .sign ';' :: rest) =
      some (.declare declaration, rest) := by
  rw [readDeclared, readDeclaration_tokens declaration legible (ends_sign (by decide))]
  rfl

theorem Item.tokens_length (item : Item) : 0 < item.tokens.length := by
  cases item with
  | statement statement =>
      cases statement with
      | call target symbol args => simp [Item.tokens, Statement.tokens]
      | leave value => cases value <;> simp [Item.tokens, Statement.tokens]
      | move _ _ => simp [Item.tokens, Statement.tokens]
      | compute _ _ _ _ => simp [Item.tokens, Statement.tokens]
      | branch _ _ _ _ => simp [Item.tokens, Statement.tokens]
      | goto _ => simp [Item.tokens, Statement.tokens]
  | declare _ => simp [Item.tokens]
  | label _ => simp [Item.tokens]
  | emptyLabel _ => simp [Item.tokens]
  | block _ => simp [Item.tokens]

/-- No item begins with a semicolon or ends a block. -/
theorem Item.tokens_head {item : Item} (legible : item.Legible) (rest : List Token) :
    (∃ word later, item.tokens ++ rest = .word word :: later) ∨
      ∃ later, item.tokens ++ rest = .sign '\x7b' :: later := by
  cases item with
  | declare declaration =>
      obtain ⟨word, later, same, _⟩ := readLine_declaration legible.1 legible.2
        ([.sign ';'] ++ rest)
      rw [Item.tokens, List.append_assoc]
      exact .inl ⟨word, later, same⟩
  | statement statement =>
      obtain ⟨word, later, same, _⟩ := readLine_statement legible rest
      exact .inl ⟨word, later, same⟩
  | label name => exact .inl ⟨_, _, rfl⟩
  | emptyLabel name => exact .inl ⟨_, _, rfl⟩
  | block items => exact .inr ⟨_, rfl⟩

theorem itemsTokens_head {items : List Item} (legible : AllLegible items)
    (rest : List Token) :
    (itemsTokens items ++ .sign '\x7d' :: rest).head? ≠ some (.sign ';') := by
  cases items with
  | nil => simp [itemsTokens]
  | cons item later =>
      rw [itemsTokens, List.append_assoc]
      rcases Item.tokens_head legible.1 (itemsTokens later ++ .sign '\x7d' :: rest) with
        ⟨word, more, same⟩ | ⟨more, same⟩
      · rw [same]
        simp
      · rw [same]
        simp

theorem readNamed_label (name : String) {rest : List Token}
    (follows : rest.head? ≠ some (.sign ';')) :
    readNamed name (.sign ':' :: rest) = some (.label name, rest) := by
  cases rest with
  | nil => rfl
  | cons token rest =>
      rw [readNamed]
      intro later same
      rw [(List.cons.inj same).1] at follows
      exact follows rfl

mutual

/-- An item is read up to its end.  A label must not seem to have an empty
statement. -/
theorem readItem_tokens (item : Item) (legible : item.Legible) {rest : List Token}
    (follows : rest.head? ≠ some (.sign ';')) :
    readItem (item.tokens ++ rest) = some (item, rest) := by
  cases item with
  | declare declaration =>
      obtain ⟨word, later, same, reads⟩ := readLine_declaration legible.1 legible.2
        (.sign ';' :: rest)
      rw [Item.tokens, List.append_assoc, List.cons_append, List.nil_append, same, readItem,
        reads, readDeclared_tokens legible.1]
  | statement statement =>
      obtain ⟨word, later, same, reads⟩ := readLine_statement legible rest
      rw [Item.tokens, same, readItem, reads]
  | label name =>
      rw [Item.tokens, List.cons_append, List.cons_append, List.nil_append, readItem,
        readLine_identifier legible, readNamed_label name follows]
  | emptyLabel name =>
      rw [Item.tokens, List.cons_append, readItem, readLine_identifier legible]
      rfl
  | block items =>
      rw [Item.tokens, List.cons_append, List.append_assoc, List.cons_append, List.nil_append,
        readItem, readItems_tokens items legible]
      rfl

theorem readItems_tokens (items : List Item) (legible : AllLegible items)
    {rest : List Token} :
    readItems (itemsTokens items ++ .sign '\x7d' :: rest) = some (items, rest) := by
  cases items with
  | nil => rw [itemsTokens, List.nil_append, readItems]
  | cons item later =>
      have shorter : (itemsTokens later ++ .sign '\x7d' :: rest).length <
          (item.tokens ++ (itemsTokens later ++ .sign '\x7d' :: rest)).length := by
        have nonempty := item.tokens_length
        simp only [List.length_append]
        omega
      rw [itemsTokens, List.append_assoc, readItems,
        readItem_tokens item legible.1 (itemsTokens_head legible.2 rest),
        proceed_some shorter, readItems_tokens later legible.2]
      · rfl
      · intro more same
        rcases Item.tokens_head legible.1 (itemsTokens later ++ .sign '\x7d' :: rest) with
          ⟨word, others, begins⟩ | ⟨others, begins⟩
        · cases begins.symm.trans same
        · cases begins.symm.trans same

end

theorem readDefinition_tokens {definition : Definition} (legible : definition.Legible)
    (rest : List Token) :
    readDefinition (definition.tokens ++ rest) = some (definition, rest) := by
  have items : readItems (itemsTokens definition.items ++ .sign '\x7d' :: rest) =
      some (definition.items, rest) := readItems_tokens _ legible.items
  rw [Definition.tokens, List.append_assoc, List.cons_append, List.append_assoc,
    List.cons_append, List.nil_append, readDefinition,
    readDeclaration_tokens definition.head legible.head (ends_sign (by decide))]
  simp only [upTo, if_true, Option.bind_eq_bind, Option.bind_some, items]
  rfl

theorem readDefinitions_tokens {definitions : List Definition}
    (legible : ∀ definition ∈ definitions, definition.Legible) :
    readDefinitions (definitionsTokens definitions) = some definitions := by
  induction definitions with
  | nil => rw [definitionsTokens, readDefinitions]
  | cons definition later induction =>
      have nonempty : 0 < definition.tokens.length := by
        simp [Definition.tokens]
      have shorter : (definitionsTokens later).length <
          (definition.tokens ++ definitionsTokens later).length := by
        rw [List.length_append]
        omega
      rw [definitionsTokens, readDefinitions,
        readDefinition_tokens (legible _ List.mem_cons_self), proceed_some shorter,
        induction fun other member => legible other (List.mem_cons_of_mem _ member)]
      · rfl
      · intro empty
        rw [empty] at shorter
        cases shorter

/-- A definition does not begin like a prototype. -/
theorem definitionsTokens_head {definitions : List Definition}
    (legible : ∀ definition ∈ definitions, definition.Legible) (rest : List Token) :
    definitionsTokens definitions ≠ .word "extern" :: rest := by
  cases definitions with
  | nil => nofun
  | cons definition later =>
      obtain ⟨⟨specifier, declarator⟩, items⟩ := definition
      have head := (legible _ List.mem_cons_self).head
      intro same
      cases specifier with
      | named name =>
          have word : name = "extern" := Token.word.inj (List.cons.inj same).1
          have absent : "extern" ∉ BasicCode.cNames := by decide +kernel
          have basic : name ∈ BasicCode.cNames := head.1
          rw [word] at basic
          exact absent basic
      | void => exact absurd (Token.word.inj (List.cons.inj same).1) (by decide)
      | tagged tag => exact absurd (Token.word.inj (List.cons.inj same).1) (by decide)
      | anonymous members =>
          exact absurd (Token.word.inj (List.cons.inj same).1) (by decide)

theorem readSource_tokens {linked : List Declaration} {definitions : List Definition}
    (linkedLegible : ∀ prototype ∈ linked, prototype.Legible)
    (legible : ∀ definition ∈ definitions, definition.Legible) :
    readSource (linkedTokens linked ++ definitionsTokens definitions) =
      some ⟨linked, definitions⟩ := by
  induction linked with
  | nil =>
      rw [linkedTokens, List.nil_append, readSource, readDefinitions_tokens legible]
      · rfl
      · exact fun rest => definitionsTokens_head legible rest
  | cons prototype later induction =>
      have ends : Ends (.sign ';' :: (linkedTokens later ++ definitionsTokens definitions)) :=
        ends_sign (by decide)
      have part : upTo ';' (readDeclaration (prototype.tokens ++ .sign ';' ::
          (linkedTokens later ++ definitionsTokens definitions))) =
            some (prototype, linkedTokens later ++ definitionsTokens definitions) := by
        rw [readDeclaration_tokens prototype (linkedLegible _ List.mem_cons_self) ends]
        rfl
      have shorter : (linkedTokens later ++ definitionsTokens definitions).length <
          (Token.word "extern" :: (prototype.tokens ++ .sign ';' ::
            (linkedTokens later ++ definitionsTokens definitions))).length := by
        simp only [List.length_append, List.length_cons]
        omega
      rw [linkedTokens, List.cons_append, List.append_assoc, List.cons_append, readSource,
        part, proceed_some shorter,
        induction fun other member => linkedLegible other (List.mem_cons_of_mem _ member)]
      rfl

end Spelled

/-- The text of a source is read back as the source is spelled. -/
theorem Source.ofText?_text {source : Source} (legible : source.spelled.Legible) :
    Spelled.Source.ofText? source.text = some source.spelled := by
  rw [Spelled.Source.ofText?, Source.tokensOf_text legible]
  exact Spelled.readSource_tokens legible.linked legible.definitions

end CBackend.C
