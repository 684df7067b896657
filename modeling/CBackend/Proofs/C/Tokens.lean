import Mathlib.Tactic.IntervalCases
import CBackend.Proofs.Lowering.TypeNames

/-!
# Tokens of a declaration

C reads a text as words and signs.  A word is a longest run of letters,
digits and underscores, blanks and line ends separate words and leave no
trace, and every other character is a sign of its own, except that a
comparison takes an `=` directly behind it along.

A declaration is written with a blank wherever two words would otherwise run
together, so its tokens can be read off from the tree.
-/

namespace CBackend

namespace C

inductive Token where
  | word (text : String)
  | sign (mark : Char)
  /-- A sign together with the `=` behind it. -/
  | paired (mark : Char)
deriving DecidableEq, Repr

def isWordChar (char : Char) : Bool := char.isAlphanum || char == '_'

def isBlank (char : Char) : Bool := char == ' ' || char == '\n'

/-- The signs that an `=` directly behind them belongs to. -/
def pairs : List Char := ['=', '!', '<', '>']

/-- The token of a word that has come to its end, if one was begun. -/
def endWord (begun : List Char) : List Token :=
  if begun = [] then [] else [.word (String.ofList begun)]

/-- The tokens of some characters, where the word in `begun` is not at its
end yet. -/
def scan (begun : List Char) : List Char → List Token
  | [] => endWord begun
  | char :: later =>
    if isWordChar char then scan (begun ++ [char]) later
    else if isBlank char then endWord begun ++ scan [] later
    else if char ∈ pairs then
      match later with
      | '=' :: rest => endWord begun ++ .paired char :: scan [] rest
      | others => endWord begun ++ .sign char :: scan [] others
    else endWord begun ++ .sign char :: scan [] later

def tokensOf (text : String) : List Token := scan [] text.toList

/-- A nonempty text that is read as one word. -/
def IsWord (text : String) : Prop :=
  text.toList ≠ [] ∧ ∀ char ∈ text.toList, isWordChar char = true

theorem isWord_of_all {text : String}
    (word : text.toList ≠ [] ∧ text.toList.all isWordChar = true) : IsWord text :=
  ⟨word.1, List.all_eq_true.mp word.2⟩

/-- A name that C lets a program choose: a word that does not begin with a
digit and is no keyword. -/
def isIdentifier (name : String) : Bool :=
  match name.toList with
  | [] => false
  | first :: later =>
    isWordChar first && !first.isDigit && later.all isWordChar &&
      !Parameters.keywords.contains name

/-- A name that may be missing. -/
def isOptionalName (name : String) : Bool := name == "" || isIdentifier name

theorem isWord_of_isIdentifier {name : String}
    (identifier : isIdentifier name = true) : IsWord name := by
  unfold isIdentifier at identifier
  split at identifier
  · cases identifier
  · rename_i first later characters
    simp only [Bool.and_eq_true, List.all_eq_true] at identifier
    obtain ⟨⟨⟨isFirst, _⟩, isLater⟩, _⟩ := identifier
    rw [IsWord, characters]
    refine ⟨List.cons_ne_nil _ _, ?_⟩
    intro char member
    rcases List.mem_cons.mp member with rfl | inLater
    · exact isFirst
    · exact isLater char inLater

theorem isOptionalName_iff {name : String} :
    isOptionalName name = true ↔ name = "" ∨ isIdentifier name = true := by
  simp [isOptionalName]

/-- What follows does not go on with a word. -/
def Delimited (characters : List Char) : Prop :=
  ∀ char ∈ characters.head?, isWordChar char = false

theorem scan_delimited {begun rest : List Char} (delimited : Delimited rest) :
    scan begun rest = endWord begun ++ scan [] rest := by
  cases rest with
  | nil => simp [scan, endWord]
  | cons char rest =>
      have noWord : isWordChar char = false := delimited char rfl
      rw [scan.eq_def, scan.eq_def []]
      simp only [noWord, Bool.false_eq_true, if_false]
      split
      · simp [endWord]
      · split
        · split <;> simp [endWord]
        · simp [endWord]

theorem scan_characters {begun characters : List Char} (rest : List Char)
    (word : ∀ char ∈ characters, isWordChar char = true) :
    scan begun (characters ++ rest) = scan (begun ++ characters) rest := by
  induction characters generalizing begun with
  | nil => simp
  | cons char characters induction =>
      have here : isWordChar char = true := word char List.mem_cons_self
      have begins : scan begun (char :: (characters ++ rest)) =
          scan (begun ++ [char]) (characters ++ rest) := by
        rw [scan.eq_def]
        exact if_pos here
      rw [List.cons_append, begins, induction]
      · simp
      · intro other member
        exact word other (List.mem_cons_of_mem _ member)

theorem scan_word {text : String} (word : IsWord text) {rest : List Char}
    (delimited : Delimited rest) :
    scan [] (text.toList ++ rest) = .word text :: scan [] rest := by
  obtain ⟨nonempty, characters⟩ := word
  rw [scan_characters rest characters, scan_delimited delimited]
  simp [endWord, nonempty]

/-- The signs of the grammar that never take an `=` along. -/
def signs : List Char :=
  ['*', '(', ')', '[', ']', '\x7b', '\x7d', ';', ',', ':', '+', '-', '/']

theorem sign_separates {sign : Char} (isSign : sign ∈ signs) :
    isWordChar sign = false ∧ isBlank sign = false ∧ sign ∉ pairs := by
  have all : signs.all (fun sign => !isWordChar sign && !isBlank sign &&
      !pairs.contains sign) = true := by decide
  simpa [and_assoc] using List.all_eq_true.mp all sign isSign

theorem pair_separates {mark : Char} (isPair : mark ∈ pairs) :
    isWordChar mark = false ∧ isBlank mark = false := by
  have all : pairs.all (fun mark => !isWordChar mark && !isBlank mark) = true := by decide
  simpa using List.all_eq_true.mp all mark isPair

theorem delimited_of_sign {sign : Char} (isSign : sign ∈ signs) (rest : List Char) :
    Delimited (sign :: rest) := by
  intro char same
  cases same
  exact (sign_separates isSign).1

theorem scan_sign {sign : Char} (isSign : sign ∈ signs) (rest : List Char) :
    scan [] (sign :: rest) = .sign sign :: scan [] rest := by
  obtain ⟨noWord, noBlank, noPair⟩ := sign_separates isSign
  rw [scan.eq_def]
  simp [noWord, noBlank, noPair, endWord]

theorem scan_paired {mark : Char} (isPair : mark ∈ pairs) (rest : List Char) :
    scan [] (mark :: '=' :: rest) = .paired mark :: scan [] rest := by
  obtain ⟨noWord, noBlank⟩ := pair_separates isPair
  simp [scan, noWord, noBlank, isPair, endWord]

theorem delimited_blank (rest : List Char) : Delimited (' ' :: rest) := by
  intro char same
  cases same
  decide

theorem scan_blank (rest : List Char) : scan [] (' ' :: rest) = scan [] rest := by
  rw [scan.eq_def]
  rfl

theorem scan_line (rest : List Char) : scan [] ('\n' :: rest) = scan [] rest := by
  rw [scan.eq_def]
  rfl

/-- A comparison before a blank stands alone. -/
theorem scan_spaced {mark : Char} (isPair : mark ∈ pairs) (rest : List Char) :
    scan [] (mark :: ' ' :: rest) = .sign mark :: scan [] rest := by
  obtain ⟨noWord, noBlank⟩ := pair_separates isPair
  rw [← scan_blank rest]
  simp [scan, noWord, noBlank, isPair, endWord]

def hexDigit? (char : Char) : Option Nat :=
  if '0' ≤ char ∧ char ≤ '9' then some (char.toNat - '0'.toNat)
  else if 'a' ≤ char ∧ char ≤ 'f' then some (char.toNat - 'a'.toNat + 10)
  else if 'A' ≤ char ∧ char ≤ 'F' then some (char.toNat - 'A'.toNat + 10)
  else none

def hexFrom (value : Nat) : List Char → Option Nat
  | [] => some value
  | char :: later => do hexFrom (16 * value + (← hexDigit? char)) later

/-- The number that hexadecimal digits spell. -/
def hexValue? (digits : String) : Option Nat := hexFrom 0 digits.toList

theorem hexFrom_append (value : Nat) (left right : List Char) :
    hexFrom value (left ++ right) = (hexFrom value left).bind fun value =>
      hexFrom value right := by
  induction left generalizing value with
  | nil => rfl
  | cons char left induction =>
      rw [List.cons_append, hexFrom, hexFrom]
      cases hexDigit? char with
      | none => rfl
      | some digit => exact induction _

theorem hexDigit?_digitChar {digit : Nat} (small : digit < 16) :
    hexDigit? digit.digitChar = some digit := by
  interval_cases digit <;> decide

theorem isWordChar_digitChar {digit : Nat} (small : digit < 16) :
    isWordChar digit.digitChar = true := by
  interval_cases digit <;> decide

theorem hexFrom_toDigits (number : Nat) :
    hexFrom 0 (Nat.toDigits 16 number) = some number := by
  induction number using Nat.strongRecOn with
  | ind number induction =>
      rw [Nat.toDigits_eq_if (by decide)]
      split
      · rename_i small
        simp [hexFrom, hexDigit?_digitChar small]
      · rename_i large
        have last : number % 16 < 16 := Nat.mod_lt _ (by decide)
        have smaller : number / 16 < number :=
          Nat.div_lt_self (Nat.lt_of_lt_of_le (by decide) (Nat.le_of_not_lt large))
            (by decide)
        rw [hexFrom_append, induction _ smaller]
        simp [hexFrom, hexDigit?_digitChar last, Nat.div_add_mod]

theorem hexValue?_hex (number : Nat) : hexValue? (Numeral.hex number) = some number := by
  rw [hexValue?, Numeral.hex, String.toList_ofList]
  exact hexFrom_toDigits number

theorem hex_isWord (number : Nat) : IsWord (Numeral.hex number) := by
  rw [IsWord, Numeral.hex, String.toList_ofList]
  refine ⟨Nat.toDigits_ne_nil, ?_⟩
  induction number using Nat.strongRecOn with
  | ind number induction =>
      intro char member
      rw [Nat.toDigits_eq_if (by decide)] at member
      split at member
      · rename_i small
        rw [List.mem_singleton.mp member]
        exact isWordChar_digitChar small
      · rename_i large
        have smaller : number / 16 < number :=
          Nat.div_lt_self (Nat.lt_of_lt_of_le (by decide) (Nat.le_of_not_lt large))
            (by decide)
        rcases List.mem_append.mp member with earlier | last
        · exact induction _ smaller char earlier
        · rw [List.mem_singleton.mp last]
          exact isWordChar_digitChar (Nat.mod_lt _ (by decide))

mutual

def Declaration.tokens : Declaration → List Token
  | ⟨specifier, declarator⟩ => specifier.tokens ++ declarator.tokens

def Specifier.tokens : Specifier → List Token
  | .void => [.word "void"]
  | .named name => [.word name]
  | .tagged tag => [.word "struct", .word tag]
  | .anonymous members =>
    .word "struct" :: .sign '\x7b' :: (membersTokens members ++ [.sign '\x7d'])

def Declarator.tokens : Declarator → List Token
  | .name text => if text = "" then [] else [.word text]
  | .pointer inner => .sign '*' :: inner.tokens
  | .group inner => .sign '(' :: (inner.tokens ++ [.sign ')'])
  | .array inner dimension =>
    inner.tokens ++ [.sign '[', .word (Numeral.hex dimension), .sign ']']
  | .function inner params =>
    inner.tokens ++ .sign '(' :: (paramsTokens params ++ [.sign ')'])

def membersTokens : List Declaration → List Token
  | [] => []
  | member :: later => member.tokens ++ .sign ';' :: membersTokens later

def paramsTokens : List Declaration → List Token
  | [] => [.word "void"]
  | first :: later => first.tokens ++ moreParamsTokens later

def moreParamsTokens : List Declaration → List Token
  | [] => []
  | param :: later => .sign ',' :: (param.tokens ++ moreParamsTokens later)

end

def Specifier.isVoid : Specifier → Bool
  | .void => true
  | .named _ | .tagged _ | .anonymous _ => false

def Declarator.isName : Declarator → Bool
  | .name _ => true
  | .pointer _ | .group _ | .array .. | .function .. => false

def Declarator.isPointer : Declarator → Bool
  | .pointer _ => true
  | .name _ | .group _ | .array .. | .function .. => false

mutual

/-- A declaration that the grammar can express as it stands: basic types have
the names that C gives them, all other names are identifiers or missing,
nothing is itself `void`, and a pointer is grouped exactly where something
follows it. -/
def Declaration.Legible : Declaration → Prop
  | ⟨specifier, declarator⟩ => specifier.Legible ∧ declarator.Legible ∧
    (specifier.isVoid = false ∨ declarator.isName = false)

def Specifier.Legible : Specifier → Prop
  | .void => True
  | .named name => name ∈ BasicCode.cNames
  | .tagged tag => isIdentifier tag = true
  | .anonymous members => AllLegible members

def Declarator.Legible : Declarator → Prop
  | .name text => isOptionalName text = true
  | .pointer inner => inner.Legible
  | .group inner => inner.isPointer = true ∧ inner.Legible
  | .array inner _ => inner.isPointer = false ∧ inner.Legible
  | .function inner params =>
    inner.isPointer = false ∧ inner.Legible ∧ AllLegible params

def AllLegible : List Declaration → Prop
  | [] => True
  | declaration :: later => declaration.Legible ∧ AllLegible later

end

theorem isWord_of_mem_cNames {name : String} (member : name ∈ BasicCode.cNames) :
    IsWord name := by
  have all : ∀ name ∈ BasicCode.cNames,
      name.toList ≠ [] ∧ name.toList.all isWordChar = true := by decide +kernel
  exact isWord_of_all (all name member)

/-- Further parameters begin with a comma, and after the last one the list is
closed. -/
theorem moreParams_delimited (params : List Declaration) (rest : List Char) :
    Delimited ((moreParamsText params).toList ++ ')' :: rest) := by
  cases params with
  | nil => exact delimited_of_sign (by decide) _
  | cons param later =>
      have split : (moreParamsText (param :: later)).toList =
          ',' :: (param.text.toList ++ (moreParamsText later).toList) := by
        simp [moreParamsText]
      rw [split]
      exact delimited_of_sign (by decide) _

mutual

theorem Declaration.scan_text (declaration : Declaration)
    (legible : declaration.Legible) {rest : List Char} (delimited : Delimited rest) :
    scan [] (declaration.text.toList ++ rest) = declaration.tokens ++ scan [] rest := by
  obtain ⟨specifier, declarator⟩ := declaration
  obtain ⟨specifierLegible, declaratorLegible, _⟩ := legible
  rw [Declaration.text, declaring, Declaration.tokens, List.append_assoc,
    ← Declarator.scan_text declarator declaratorLegible delimited]
  split
  · rename_i nameless
    rw [Specifier.scan_text specifier specifierLegible delimited, nameless]
    rfl
  · have split : (specifier.text ++ " " ++ declarator.text).toList ++ rest =
        specifier.text.toList ++ ' ' :: (declarator.text.toList ++ rest) := by
      simp
    rw [split, Specifier.scan_text specifier specifierLegible (delimited_blank _),
      scan_blank]

theorem Specifier.scan_text (specifier : Specifier) (legible : specifier.Legible)
    {rest : List Char} (delimited : Delimited rest) :
    scan [] (specifier.text.toList ++ rest) = specifier.tokens ++ scan [] rest := by
  cases specifier with
  | void =>
      exact scan_word (isWord_of_all (by decide)) delimited
  | named name => exact scan_word (isWord_of_mem_cNames legible) delimited
  | tagged tag =>
      have word : IsWord tag := isWord_of_isIdentifier legible
      have keyword : IsWord "struct" := isWord_of_all (by decide)
      have split : (Specifier.tagged tag).text.toList ++ rest =
          "struct".toList ++ ' ' :: (tag.toList ++ rest) := by
        simp [Specifier.text]
      rw [split, scan_word keyword (delimited_blank _), scan_blank, scan_word word delimited]
      rfl
  | anonymous members =>
      have keyword : IsWord "struct" := isWord_of_all (by decide)
      have split : (Specifier.anonymous members).text.toList ++ rest =
          "struct".toList ++ '\x7b' :: ((membersText members).toList ++ '\x7d' :: rest) := by
        simp [Specifier.text]
      rw [split, scan_word keyword (delimited_of_sign (by decide) _),
        scan_sign (by decide), members_scan_text members legible, scan_sign (by decide)]
      simp [Specifier.tokens]

theorem Declarator.scan_text (declarator : Declarator) (legible : declarator.Legible)
    {rest : List Char} (delimited : Delimited rest) :
    scan [] (declarator.text.toList ++ rest) = declarator.tokens ++ scan [] rest := by
  cases declarator with
  | name text =>
      rcases isOptionalName_iff.mp legible with rfl | identifier
      · rfl
      · have word := isWord_of_isIdentifier identifier
        have named : text ≠ "" := by
          rintro rfl
          exact word.1 rfl
        rw [Declarator.text, scan_word word delimited, Declarator.tokens, if_neg named]
        rfl
  | pointer inner =>
      have split : (Declarator.pointer inner).text.toList ++ rest =
          '*' :: (inner.text.toList ++ rest) := by
        simp [Declarator.text]
      rw [split, scan_sign (by decide), Declarator.scan_text inner legible delimited]
      rfl
  | group inner =>
      have split : (Declarator.group inner).text.toList ++ rest =
          '(' :: (inner.text.toList ++ ')' :: rest) := by
        simp [Declarator.text]
      rw [split, scan_sign (by decide), Declarator.scan_text inner legible.2
        (delimited_of_sign (by decide) _), scan_sign (by decide)]
      simp [Declarator.tokens]
  | array inner dimension =>
      have split : (Declarator.array inner dimension).text.toList ++ rest =
          inner.text.toList ++ '[' :: ((Numeral.hex dimension).toList ++ ']' :: rest) := by
        simp [Declarator.text]
      rw [split, Declarator.scan_text inner legible.2 (delimited_of_sign (by decide) _),
        scan_sign (by decide), scan_word (hex_isWord dimension)
          (delimited_of_sign (by decide) _), scan_sign (by decide)]
      simp [Declarator.tokens]
  | function inner params =>
      have split : (Declarator.function inner params).text.toList ++ rest =
          inner.text.toList ++ '(' :: ((paramsText params).toList ++ ')' :: rest) := by
        simp [Declarator.text]
      rw [split, Declarator.scan_text inner legible.2.1 (delimited_of_sign (by decide) _),
        scan_sign (by decide), params_scan_text params legible.2.2, scan_sign (by decide)]
      simp [Declarator.tokens]

theorem members_scan_text (members : List Declaration) (legible : AllLegible members)
    {rest : List Char} :
    scan [] ((membersText members).toList ++ '\x7d' :: rest) =
      membersTokens members ++ scan [] ('\x7d' :: rest) := by
  cases members with
  | nil => rfl
  | cons member later =>
      have split : (membersText (member :: later)).toList ++ '\x7d' :: rest =
          member.text.toList ++ ';' :: ((membersText later).toList ++ '\x7d' :: rest) := by
        simp [membersText]
      rw [split, Declaration.scan_text member legible.1 (delimited_of_sign (by decide) _),
        scan_sign (by decide), members_scan_text later legible.2]
      simp [membersTokens]

theorem params_scan_text (params : List Declaration) (legible : AllLegible params)
    {rest : List Char} :
    scan [] ((paramsText params).toList ++ ')' :: rest) =
      paramsTokens params ++ scan [] (')' :: rest) := by
  cases params with
  | nil =>
      exact scan_word (isWord_of_all (by decide)) (delimited_of_sign (by decide) _)
  | cons first later =>
      have split : (paramsText (first :: later)).toList ++ ')' :: rest =
          first.text.toList ++ ((moreParamsText later).toList ++ ')' :: rest) := by
        simp [paramsText]
      rw [split, Declaration.scan_text first legible.1 (moreParams_delimited later rest),
        moreParams_scan_text later legible.2]
      simp [paramsTokens]

theorem moreParams_scan_text (params : List Declaration) (legible : AllLegible params)
    {rest : List Char} :
    scan [] ((moreParamsText params).toList ++ ')' :: rest) =
      moreParamsTokens params ++ scan [] (')' :: rest) := by
  cases params with
  | nil => rfl
  | cons param later =>
      have split : (moreParamsText (param :: later)).toList ++ ')' :: rest =
          ',' :: (param.text.toList ++ ((moreParamsText later).toList ++ ')' :: rest)) := by
        simp [moreParamsText]
      rw [split, scan_sign (by decide),
        Declaration.scan_text param legible.1 (moreParams_delimited later rest),
        moreParams_scan_text later legible.2]
      simp [moreParamsTokens]

end

/-- The tokens of a written declaration are those of its tree. -/
theorem Declaration.tokensOf_text {declaration : Declaration}
    (legible : declaration.Legible) :
    tokensOf declaration.text = declaration.tokens := by
  have nothing : Delimited [] := nofun
  have scanned := declaration.scan_text legible nothing
  simpa [tokensOf, scan, endWord] using scanned

end C

end CBackend
