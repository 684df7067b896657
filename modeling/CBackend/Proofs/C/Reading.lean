import CBackend.Proofs.C.Tokens

/-!
# Reading declarations

The grammar of C declarations, as far as generated texts use it.  A
declaration is a specifier and a declarator.  In a declarator a prefix `*`
binds weaker than the dimensions and parameter lists that follow, and
parentheses group.  A parenthesis where a name could stand begins a parameter
list if a type follows it, and a group otherwise.  A parameter list that is
nothing but `void` is empty.  Dimensions are read in base sixteen, and names
may be missing.

Reading is the inverse of writing on legible declarations.
-/

namespace CBackend.C

/-- Goes on behind a part that has been read, which was not empty. -/
def proceed (tokens : List Token) (part : Option (α × List Token))
    (next : α → (rest : List Token) → rest.length < tokens.length → Option β) :
    Option β :=
  match part with
  | none => none
  | some (value, rest) =>
    if shorter : rest.length < tokens.length then next value rest shorter else none

theorem proceed_some {tokens rest : List Token} {value : α}
    {next : α → (rest : List Token) → rest.length < tokens.length → Option β}
    (shorter : rest.length < tokens.length) :
    proceed tokens (some (value, rest)) next = next value rest shorter := by
  rw [proceed, dif_pos shorter]

/-- A part together with the sign behind it. -/
def upTo (mark : Char) : Option (α × List Token) → Option (α × List Token)
  | some (value, .sign found :: rest) => if found = mark then some (value, rest) else none
  | _ => none

/-- Whether an opening parenthesis before these tokens begins a parameter
list. -/
def opensParams : List Token → Bool
  | .word word :: _ => word == "void" || word == "struct" || BasicCode.cNames.contains word
  | .sign mark :: _ => mark == ')'
  | .paired _ :: _ | [] => false

mutual

def readDeclaration (tokens : List Token) : Option (Declaration × List Token) :=
  proceed tokens (readSpecifier tokens) fun specifier rest _ => do
    let (declarator, rest) ← readDeclarator rest
    return (⟨specifier, declarator⟩, rest)
termination_by (tokens.length, 1)

def readSpecifier (tokens : List Token) : Option (Specifier × List Token) :=
  match tokens with
  | .word "void" :: rest => some (.void, rest)
  | .word "struct" :: .sign '\x7b' :: rest => do
    let (members, rest) ← readMembers rest
    return (.anonymous members, rest)
  | .word "struct" :: .word tag :: rest =>
    if isIdentifier tag then some (.tagged tag, rest) else none
  | .word name :: rest =>
    if BasicCode.cNames.contains name then some (.named name, rest) else none
  | _ => none
termination_by (tokens.length, 0)

def readDeclarator (tokens : List Token) : Option (Declarator × List Token) :=
  match tokens with
  | .sign '*' :: rest => do
    let (inner, rest) ← readDeclarator rest
    return (.pointer inner, rest)
  | .sign '(' :: rest =>
    if opensParams rest then readSuffixes (.name "") (.sign '(' :: rest)
    else proceed (.sign '(' :: rest) (upTo ')' (readDeclarator rest)) fun inner rest _ =>
      readSuffixes (.group inner) rest
  | .word name :: rest =>
    if isIdentifier name then readSuffixes (.name name) rest else none
  | rest => readSuffixes (.name "") rest
termination_by (tokens.length, 1)

/-- Dimensions and parameter lists behind what has been read. -/
def readSuffixes (before : Declarator) (tokens : List Token) :
    Option (Declarator × List Token) :=
  match tokens with
  | .sign '[' :: .word digits :: .sign ']' :: rest => do
    let dimension ← hexValue? digits
    readSuffixes (.array before dimension) rest
  | .sign '(' :: rest =>
    proceed (.sign '(' :: rest) (readParams rest) fun params rest _ =>
      readSuffixes (.function before params) rest
  | rest => some (before, rest)
termination_by (tokens.length, 0)

/-- Parameters up to the closing parenthesis. -/
def readParams (tokens : List Token) : Option (List Declaration × List Token) :=
  match tokens with
  | .word "void" :: .sign ')' :: rest => some ([], rest)
  | tokens => proceed tokens (readDeclaration tokens) fun first rest _ => do
    let (later, rest) ← readMoreParams rest
    return (first :: later, rest)
termination_by (tokens.length, 2)

def readMoreParams (tokens : List Token) : Option (List Declaration × List Token) :=
  match tokens with
  | .sign ')' :: rest => some ([], rest)
  | .sign ',' :: rest =>
    proceed (.sign ',' :: rest) (readDeclaration rest) fun param rest _ => do
      let (later, rest) ← readMoreParams rest
      return (param :: later, rest)
  | _ => none
termination_by (tokens.length, 0)

/-- Members up to the closing brace. -/
def readMembers (tokens : List Token) : Option (List Declaration × List Token) :=
  match tokens with
  | .sign '\x7d' :: rest => some ([], rest)
  | tokens => proceed tokens (upTo ';' (readDeclaration tokens)) fun member rest _ => do
    let (later, rest) ← readMembers rest
    return (member :: later, rest)
termination_by (tokens.length, 2)

end

/-- The signs that may stand behind a declaration. -/
def closers : List Char := [',', ';', ')', '\x7b']

/-- What may stand behind a declaration. -/
def Ends : List Token → Prop
  | [] => True
  | .sign mark :: _ => mark ∈ closers
  | .word _ :: _ | .paired _ :: _ => False

theorem ends_sign {mark : Char} {rest : List Token} (closes : mark ∈ closers) :
    Ends (.sign mark :: rest) := closes

theorem not_ends_sign {mark : Char} {rest : List Token} (goesOn : mark ∉ closers) :
    ¬ Ends (.sign mark :: rest) := goesOn

/-- What may stand behind a declarator that is not a pointer. -/
inductive Continues : List Token → Prop where
  | ends {rest : List Token} (ends : Ends rest) : Continues rest
  | dimension (rest : List Token) : Continues (.sign '[' :: rest)
  | params {rest : List Token} (opens : opensParams rest = true) :
      Continues (.sign '(' :: rest)

theorem readSuffixes_ends {before : Declarator} {rest : List Token} (ends : Ends rest) :
    readSuffixes before rest = some (before, rest) := by
  unfold readSuffixes
  split
  · exact absurd ends (not_ends_sign (by decide))
  · exact absurd ends (not_ends_sign (by decide))
  · rfl

/-- A declarator begins with its dimensions or parameters if it has no name. -/
theorem readDeclarator_nameless {rest : List Token} (continues : Continues rest) :
    readDeclarator rest = readSuffixes (.name "") rest := by
  unfold readDeclarator
  cases continues with
  | dimension rest => rfl
  | params opens => exact if_pos opens
  | ends ends =>
      split
      · exact absurd ends (not_ends_sign (by decide))
      · exact absurd ends (not_ends_sign (by decide))
      · exact ends.elim
      · rfl

theorem cName_not_keyword {name : String} (member : name ∈ BasicCode.cNames) :
    name ≠ "void" ∧ name ≠ "struct" := by
  have all : ∀ name ∈ BasicCode.cNames, name ≠ "void" ∧ name ≠ "struct" := by
    decide +kernel
  exact all name member

/-- A declaration begins with a type. -/
theorem Declaration.opensParams_tokens {declaration : Declaration}
    (legible : declaration.Legible) (rest : List Token) :
    opensParams (declaration.tokens ++ rest) = true := by
  obtain ⟨specifier, declarator⟩ := declaration
  cases specifier with
  | void => rfl
  | tagged tag => rfl
  | anonymous members => rfl
  | named name =>
      have named : name ∈ BasicCode.cNames := legible.1
      simp [Declaration.tokens, Specifier.tokens, opensParams, named]

theorem paramsTokens_opens {params : List Declaration} (legible : AllLegible params)
    (rest : List Token) : opensParams (paramsTokens params ++ rest) = true := by
  cases params with
  | nil => rfl
  | cons first later =>
      rw [paramsTokens, List.append_assoc]
      exact Declaration.opensParams_tokens legible.1 _

private theorem length_lt_append {front back : List Token} (nonempty : 0 < front.length) :
    back.length < (front ++ back).length := by
  rw [List.length_append]
  omega

theorem tokens_specifier_length (specifier : Specifier) : 0 < specifier.tokens.length := by
  cases specifier <;> simp [Specifier.tokens]

theorem Declaration.tokens_length (declaration : Declaration) :
    0 < declaration.tokens.length := by
  obtain ⟨specifier, declarator⟩ := declaration
  have nonempty := tokens_specifier_length specifier
  rw [Declaration.tokens, List.length_append]
  omega

/-- A declarator does not begin with a closing parenthesis unless what follows
it does. -/
theorem Declarator.tokens_not_closing (declarator : Declarator) {rest : List Token}
    (inside : rest.head? ≠ some (.sign ')')) :
    (declarator.tokens ++ rest).head? ≠ some (.sign ')') := by
  cases declarator with
  | name text =>
      rw [Declarator.tokens]
      split
      · exact inside
      · nofun
  | pointer inner => simp [Declarator.tokens]
  | group inner => simp [Declarator.tokens]
  | array inner dimension =>
      rw [Declarator.tokens, List.append_assoc]
      exact inner.tokens_not_closing (by simp)
  | function inner params =>
      rw [Declarator.tokens, List.append_assoc]
      exact inner.tokens_not_closing (by simp)

/-- A parameter is never read as an empty list. -/
theorem Declaration.tokens_ne_void {declaration : Declaration}
    (legible : declaration.Legible) {rest later : List Token} :
    declaration.tokens ++ rest ≠ .word "void" :: .sign ')' :: later := by
  obtain ⟨specifier, declarator⟩ := declaration
  obtain ⟨specifierLegible, _, typed⟩ := legible
  intro same
  cases specifier with
  | void =>
      have head : (declarator.tokens ++ rest).head? = some (.sign ')') :=
        congrArg List.head? (List.cons.inj same).2
      cases declarator with
      | name text => simp [Specifier.isVoid, Declarator.isName] at typed
      | pointer inner => simp [Declarator.tokens] at head
      | group inner => simp [Declarator.tokens] at head
      | array inner dimension =>
          rw [Declarator.tokens, List.append_assoc] at head
          exact inner.tokens_not_closing (by simp) head
      | function inner params =>
          rw [Declarator.tokens, List.append_assoc] at head
          exact inner.tokens_not_closing (by simp) head
  | named name =>
      have word : name = "void" := Token.word.inj (List.cons.inj same).1
      exact (cName_not_keyword specifierLegible).1 word
  | tagged tag => exact absurd (Token.word.inj (List.cons.inj same).1) (by decide)
  | anonymous members => exact absurd (Token.word.inj (List.cons.inj same).1) (by decide)

/-- A member never ends the list of members. -/
theorem Declaration.tokens_ne_sign (declaration : Declaration) {rest later : List Token}
    {mark : Char} : declaration.tokens ++ rest ≠ .sign mark :: later := by
  obtain ⟨specifier, declarator⟩ := declaration
  intro same
  cases specifier <;> cases (List.cons.inj same).1

theorem moreParamsTokens_ends (params : List Declaration) (rest : List Token) :
    Ends (moreParamsTokens params ++ .sign ')' :: rest) := by
  cases params with
  | nil => exact ends_sign (by decide)
  | cons param later => exact ends_sign (by decide)

mutual

theorem readDeclaration_tokens (declaration : Declaration)
    (legible : declaration.Legible) {rest : List Token} (ends : Ends rest) :
    readDeclaration (declaration.tokens ++ rest) = some (declaration, rest) := by
  obtain ⟨specifier, declarator⟩ := declaration
  have shorter : (declarator.tokens ++ rest).length <
      (specifier.tokens ++ (declarator.tokens ++ rest)).length := by
    exact length_lt_append (tokens_specifier_length specifier)
  rw [Declaration.tokens, List.append_assoc, readDeclaration,
    readSpecifier_tokens specifier legible.1, proceed_some shorter,
    readDeclarator_tokens declarator legible.2.1 (.ends ends) fun _ => ends,
    readSuffixes_ends ends]
  rfl

theorem readSpecifier_tokens (specifier : Specifier) (legible : specifier.Legible)
    {rest : List Token} :
    readSpecifier (specifier.tokens ++ rest) = some (specifier, rest) := by
  cases specifier with
  | void => rw [Specifier.tokens, List.cons_append, readSpecifier]; rfl
  | named name =>
      obtain ⟨notVoid, notStruct⟩ := cName_not_keyword legible
      rw [Specifier.tokens, List.cons_append, List.nil_append, readSpecifier]
      · exact if_pos (List.contains_iff_mem.mpr legible)
      · exact notVoid
      · exact fun _ _ => notStruct
      · exact fun _ _ _ => notStruct
  | tagged tag =>
      rw [Specifier.tokens, List.cons_append, List.cons_append, List.nil_append,
        readSpecifier]
      exact if_pos legible
  | anonymous members =>
      rw [Specifier.tokens, List.cons_append, List.cons_append, List.append_assoc,
        readSpecifier, List.cons_append, List.nil_append,
        readMembers_tokens members legible]
      rfl

/-- A declarator is read up to its end, where more dimensions and parameters
may follow unless it is a pointer. -/
theorem readDeclarator_tokens (declarator : Declarator) (legible : declarator.Legible)
    {rest : List Token} (continues : Continues rest)
    (ends : declarator.isPointer = true → Ends rest) :
    readDeclarator (declarator.tokens ++ rest) = readSuffixes declarator rest := by
  cases declarator with
  | pointer inner =>
      rw [Declarator.tokens, List.cons_append, readDeclarator,
        readDeclarator_tokens inner legible continues fun _ => ends rfl,
        readSuffixes_ends (ends rfl), readSuffixes_ends (ends rfl)]
      rfl
  | name text =>
      rcases isOptionalName_iff.mp legible with rfl | identifier
      · exact readDeclarator_nameless continues
      · have named : text ≠ "" := by
          rintro rfl
          cases identifier
        rw [Declarator.tokens, if_neg named, List.cons_append, List.nil_append,
          readDeclarator]
        exact if_pos identifier
  | group inner =>
      have shorter : rest.length <
          (Token.sign '(' :: (inner.tokens ++ .sign ')' :: rest)).length := by
        simp only [List.length_append, List.length_cons]
        omega
      have closes : Ends (.sign ')' :: rest) := ends_sign (by decide)
      have part : upTo ')' (readDeclarator (inner.tokens ++ .sign ')' :: rest)) =
          some (inner, rest) := by
        rw [readDeclarator_tokens inner legible.2 (.ends closes) fun _ => closes,
          readSuffixes_ends closes]
        rfl
      have grouped : opensParams (inner.tokens ++ .sign ')' :: rest) = false := by
        cases inner with
        | pointer _ => rfl
        | name _ => cases legible.1
        | group _ => cases legible.1
        | array _ _ => cases legible.1
        | function _ _ => cases legible.1
      rw [Declarator.tokens, List.cons_append, List.append_assoc, List.cons_append,
        List.nil_append, readDeclarator, grouped, part, proceed_some shorter]
      rfl
  | array inner dimension =>
      rw [Declarator.tokens, List.append_assoc, List.cons_append, List.cons_append,
        List.cons_append, List.nil_append,
        readDeclarator_tokens inner legible.2 (.dimension _) (by simp [legible.1]),
        readSuffixes, hexValue?_hex]
      rfl
  | function inner params =>
      have shorter : rest.length <
          (Token.sign '(' :: (paramsTokens params ++ .sign ')' :: rest)).length := by
        simp only [List.length_append, List.length_cons]
        omega
      rw [Declarator.tokens, List.append_assoc, List.cons_append, List.append_assoc,
        List.cons_append, List.nil_append,
        readDeclarator_tokens inner legible.2.1
          (.params (paramsTokens_opens legible.2.2 _)) (by simp [legible.1]), readSuffixes,
        readParams_tokens params legible.2.2, proceed_some shorter]

theorem readParams_tokens (params : List Declaration) (legible : AllLegible params)
    {rest : List Token} :
    readParams (paramsTokens params ++ .sign ')' :: rest) = some (params, rest) := by
  cases params with
  | nil => rw [paramsTokens, List.cons_append, List.nil_append, readParams]
  | cons first later =>
      have shorter : (moreParamsTokens later ++ .sign ')' :: rest).length <
          (first.tokens ++ (moreParamsTokens later ++ .sign ')' :: rest)).length := by
        exact length_lt_append first.tokens_length
      rw [paramsTokens, List.append_assoc, readParams,
        readDeclaration_tokens first legible.1 (moreParamsTokens_ends later rest),
        proceed_some shorter, readMoreParams_tokens later legible.2]
      · rfl
      · exact fun _ => Declaration.tokens_ne_void legible.1

theorem readMoreParams_tokens (params : List Declaration) (legible : AllLegible params)
    {rest : List Token} :
    readMoreParams (moreParamsTokens params ++ .sign ')' :: rest) = some (params, rest) := by
  cases params with
  | nil => rw [moreParamsTokens, List.nil_append, readMoreParams]
  | cons param later =>
      have shorter : (moreParamsTokens later ++ .sign ')' :: rest).length <
          (Token.sign ',' :: (param.tokens ++
            (moreParamsTokens later ++ .sign ')' :: rest))).length := by
        simp only [List.length_append, List.length_cons]
        omega
      rw [moreParamsTokens, List.cons_append, List.append_assoc, readMoreParams,
        readDeclaration_tokens param legible.1 (moreParamsTokens_ends later rest),
        proceed_some shorter, readMoreParams_tokens later legible.2]
      rfl

theorem readMembers_tokens (members : List Declaration) (legible : AllLegible members)
    {rest : List Token} :
    readMembers (membersTokens members ++ .sign '\x7d' :: rest) = some (members, rest) := by
  cases members with
  | nil => rw [membersTokens, List.nil_append, readMembers]
  | cons member later =>
      have shorter : (membersTokens later ++ .sign '\x7d' :: rest).length <
          (member.tokens ++ .sign ';' ::
            (membersTokens later ++ .sign '\x7d' :: rest)).length := by
        simp only [List.length_append, List.length_cons]
        omega
      have closes : Ends (.sign ';' :: (membersTokens later ++ .sign '\x7d' :: rest)) :=
        ends_sign (by decide)
      have part : upTo ';' (readDeclaration (member.tokens ++ .sign ';' ::
          (membersTokens later ++ .sign '\x7d' :: rest))) =
            some (member, membersTokens later ++ .sign '\x7d' :: rest) := by
        rw [readDeclaration_tokens member legible.1 closes]
        rfl
      rw [membersTokens, List.append_assoc, List.cons_append, readMembers, part,
        proceed_some shorter, readMembers_tokens later legible.2]
      · rfl
      · exact fun _ => member.tokens_ne_sign

end

/-- The declaration that a whole text spells. -/
def Declaration.ofText? (text : String) : Option Declaration :=
  match readDeclaration (tokensOf text) with
  | some (declaration, []) => some declaration
  | _ => none

theorem Declaration.ofText?_text {declaration : Declaration}
    (legible : declaration.Legible) :
    Declaration.ofText? declaration.text = some declaration := by
  have read : readDeclaration (declaration.tokens ++ []) = some (declaration, []) :=
    readDeclaration_tokens declaration legible trivial
  rw [List.append_nil] at read
  rw [Declaration.ofText?, tokensOf_text legible, read]

end CBackend.C
