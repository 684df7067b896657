import Mathlib.Data.List.Chain
import Mathlib.Tactic.IntervalCases
import CBackend.Json.Scan

/-!
# Texts of JSON tokens

The texts that a token may have, said as a grammar.  A character of a string
stands for itself or is escaped in one of several ways, and an integer is
written in decimal digits without leading zeros.  Blanks may stand between
tokens.

Main statement: a text that spells some tokens is cut into these tokens.  Only
a number has to know where it ends, which it does because no number follows
another one.
-/

namespace CBackend.Json

/-- The letters after a backslash, with the characters that they stand for. -/
def escapeLetters : List (Char × Char) :=
  [('"', '"'), ('\\', '\\'), ('/', '/'), ('b', '\x08'), ('f', '\x0c'), ('n', '\n'),
   ('r', '\r'), ('t', '\t')]

/-- A hexadecimal digit in lower or upper case. -/
def IsHexDigit (value : Nat) (digit : Char) : Prop :=
  value < 16 ∧ (digit = value.digitChar ∨ digit = value.digitChar.toUpper)

/-- A number in four hexadecimal digits. -/
inductive HexText : Nat → List Char → Prop where
  | digits {a b c d : Nat} {first second third fourth : Char} (isFirst : IsHexDigit a first)
      (isSecond : IsHexDigit b second) (isThird : IsHexDigit c third)
      (isFourth : IsHexDigit d fourth) :
      HexText (a * 0x1000 + b * 0x100 + c * 0x10 + d) [first, second, third, fourth]

/-- The first of the two surrogates that stand for a character whose code has
more than four digits. -/
def highSurrogate (char : Char) : Nat := 0xD800 + (char.toNat - 0x10000) / 0x400

def lowSurrogate (char : Char) : Nat := 0xDC00 + (char.toNat - 0x10000) % 0x400

/-- How a character is written in a string: as itself, after a backslash, by
its code, or by the codes of the two surrogates that stand for it. -/
inductive CharText : Char → List Char → Prop where
  | plain {char : Char} (visible : 0x20 ≤ char.toNat) (noQuote : char ≠ '"')
      (noBackslash : char ≠ '\\') : CharText char [char]
  | letter {letter char : Char} (escape : (letter, char) ∈ escapeLetters) :
      CharText char ['\\', letter]
  | code {char : Char} {digits : List Char} (spelled : HexText char.toNat digits) :
      CharText char ('\\' :: 'u' :: digits)
  | pair {char : Char} {high low : List Char} (large : 0x10000 ≤ char.toNat)
      (highSpelled : HexText (highSurrogate char) high)
      (lowSpelled : HexText (lowSurrogate char) low) :
      CharText char ('\\' :: 'u' :: high ++ '\\' :: 'u' :: low)

/-- What stands between the quotes of a string. -/
inductive StringText : List Char → List Char → Prop where
  | nil : StringText [] []
  | cons {char : Char} {chars first rest : List Char} (spelled : CharText char first)
      (later : StringText chars rest) : StringText (char :: chars) (first ++ rest)

namespace Scan

theorem hexDigit?_eq {value : Nat} {digit : Char} (isDigit : IsHexDigit value digit) :
    hexDigit? digit = some value := by
  obtain ⟨small, rfl | rfl⟩ := isDigit
  · interval_cases value <;> decide
  · interval_cases value <;> decide

theorem pieces_hex {code : Nat} {digits : List Char} (spelled : HexText code digits)
    (rest : List Char) :
    pieces ('\\' :: 'u' :: digits ++ rest) =
      (pieces rest).map fun result => (.ofCode code :: result.1, result.2) := by
  cases spelled with
  | digits isFirst isSecond isThird isFourth =>
      simp only [List.cons_append, List.nil_append, pieces, hexCode?, hexDigit?_eq isFirst,
        hexDigit?_eq isSecond, hexDigit?_eq isThird, hexDigit?_eq isFourth]
      cases pieces rest <;> rfl

theorem ofCode_surrogate {code : Nat} (low : 0xD800 ≤ code) (high : code < 0xE000) :
    Piece.ofCode code = .surrogate code := if_pos ⟨low, high⟩

theorem ofCode_char (char : Char) : Piece.ofCode char.toNat = .char char := by
  have scalar : ¬ (0xD800 ≤ char.toNat ∧ char.toNat < 0xE000) := by
    rintro ⟨low, high⟩
    rcases char.valid with below | ⟨above, _⟩
    · have : char.toNat < 0xD800 := below
      omega
    · have : 0xDFFF < char.toNat := above
      omega
  rw [Piece.ofCode, if_neg scalar, Char.ofNat_toNat]

theorem pieces_letter {letter char : Char} (escape : (letter, char) ∈ escapeLetters)
    (rest : List Char) :
    pieces ('\\' :: letter :: rest) =
      (pieces rest).map fun result => (.char char :: result.1, result.2) := by
  simp only [escapeLetters, List.mem_cons, Prod.mk.injEq, List.not_mem_nil, or_false] at escape
  rcases escape with ⟨rfl, rfl⟩ | ⟨rfl, rfl⟩ | ⟨rfl, rfl⟩ | ⟨rfl, rfl⟩ | ⟨rfl, rfl⟩ | ⟨rfl, rfl⟩ |
    ⟨rfl, rfl⟩ | ⟨rfl, rfl⟩
  all_goals
    rw [pieces]
    · cases pieces rest <;> rfl
    · simp

theorem pieces_plain {char : Char} (visible : 0x20 ≤ char.toNat) (noQuote : char ≠ '"')
    (noBackslash : char ≠ '\\') (rest : List Char) :
    pieces (char :: rest) =
      (pieces rest).map fun result => (.char char :: result.1, result.2) := by
  rw [pieces]
  · rw [if_neg (Nat.not_lt.mpr visible)]
    cases pieces rest <;> rfl
  · exact noQuote
  · intro a b c d e same
    exact absurd same noBackslash
  · intro a b same
    exact absurd same noBackslash

theorem surrogates_join {char : Char} (large : 0x10000 ≤ char.toNat) :
    (0xD800 ≤ highSurrogate char ∧ highSurrogate char < 0xDC00) ∧
      (0xDC00 ≤ lowSurrogate char ∧ lowSurrogate char < 0xE000) ∧
      0x10000 + (highSurrogate char - 0xD800) * 0x400 + (lowSurrogate char - 0xDC00) =
        char.toNat := by
  have bound : char.toNat < 0x110000 := by
    rcases char.valid with below | ⟨_, above⟩
    · exact Nat.lt_trans below (by decide)
    · exact above
  unfold highSurrogate lowSurrogate
  omega

theorem spell_surrogates {char : Char} (large : 0x10000 ≤ char.toNat) (later : List Piece) :
    spell (.surrogate (highSurrogate char) :: .surrogate (lowSurrogate char) :: later) =
      (spell later).map (char :: ·) := by
  obtain ⟨⟨_, high⟩, ⟨low, _⟩, joined⟩ := surrogates_join large
  rw [spell, if_pos ⟨high, low⟩, joined, Char.ofNat_toNat]

/-- What a character gives, however it is written, is read before what comes
after it and spells the character. -/
theorem pieces_char {char : Char} {text : List Char} (spelled : CharText char text) :
    ∃ found : List Piece,
      (∀ rest, pieces (text ++ rest) =
        (pieces rest).map fun result => (found ++ result.1, result.2)) ∧
      ∀ later, spell (found ++ later) = (spell later).map (char :: ·) := by
  cases spelled with
  | plain visible noQuote noBackslash =>
      exact ⟨[.char char], pieces_plain visible noQuote noBackslash, fun _ => rfl⟩
  | letter escape => exact ⟨[.char char], pieces_letter escape, fun _ => rfl⟩
  | code spelled =>
      refine ⟨[.char char], ?_, fun _ => rfl⟩
      intro rest
      rw [pieces_hex spelled, ofCode_char]
      rfl
  | pair large highSpelled lowSpelled =>
      obtain ⟨high, low, _⟩ := surrogates_join large
      have highPiece := ofCode_surrogate high.1 (Nat.lt_trans high.2 (by decide))
      have lowPiece := ofCode_surrogate (Nat.le_trans (by decide) low.1) low.2
      refine ⟨[.surrogate (highSurrogate char), .surrogate (lowSurrogate char)], ?_,
        spell_surrogates large⟩
      intro rest
      rw [List.append_assoc, pieces_hex highSpelled, pieces_hex lowSpelled, highPiece, lowPiece]
      cases pieces rest <;> rfl

theorem pieces_string {chars text : List Char} (spelled : StringText chars text) :
    ∃ found : List Piece,
      (∀ rest, pieces (text ++ '"' :: rest) = some (found, rest)) ∧ spell found = some chars := by
  induction spelled with
  | nil => exact ⟨[], fun _ => by simp [pieces], rfl⟩
  | @cons char chars first rest spelled _ induction =>
      obtain ⟨here, readHere, spellHere⟩ := pieces_char spelled
      obtain ⟨later, readLater, spellLater⟩ := induction
      refine ⟨here ++ later, ?_, ?_⟩
      · intro after
        rw [List.append_assoc, readHere, readLater]
        rfl
      · rw [spellHere, spellLater]
        rfl

end Scan

/-- An integer in decimal digits. -/
def Number.integer (negative : Bool) (value : Nat) : Number :=
  ⟨negative, Nat.toDigits 10 value, [], none⟩

/-- Integers of 64 bits, unsigned or with a sign. -/
inductive NumberText : Number → List Char → Prop where
  | natural {value : Nat} (small : value < 2 ^ 64) :
      NumberText (.integer false value) (Nat.toDigits 10 value)
  | negative {value : Nat} (small : value ≤ 2 ^ 63) :
      NumberText (.integer true value) ('-' :: Nat.toDigits 10 value)

namespace Scan

/-- What follows does not go on with a number. -/
def NumberEnds (rest : List Char) : Prop :=
  ∀ char ∈ rest.head?, char.isDigit = false ∧ char ≠ '.' ∧ char ≠ 'e' ∧ char ≠ 'E'

theorem digits_whole {found rest : List Char} (areDigits : ∀ char ∈ found, char.isDigit = true)
    (ends : NumberEnds rest) : digits (found ++ rest) = (found, rest) := by
  have stops : rest.takeWhile Char.isDigit = [] ∧ rest.dropWhile Char.isDigit = rest := by
    cases rest with
    | nil => exact ⟨rfl, rfl⟩
    | cons char rest =>
        have noDigit := (ends char rfl).1
        simp [noDigit]
  rw [digits, List.takeWhile_append_of_pos areDigits, List.dropWhile_append_of_pos areDigits,
    stops.1, stops.2, List.append_nil]

/-- Only the numeral of zero begins with a zero. -/
theorem toDigits_cons {value : Nat} (positive : value ≠ 0) :
    ∃ digit later, Nat.toDigits 10 value = digit :: later ∧ digit ≠ '0' := by
  induction value using Nat.strongRecOn with
  | ind value induction =>
      rw [Nat.toDigits_eq_if (by decide)]
      split
      · refine ⟨value.digitChar, [], rfl, ?_⟩
        interval_cases value <;> simp_all
      · have smaller : value / 10 < value := by omega
        obtain ⟨digit, later, same, nonzero⟩ := induction _ smaller (by omega)
        exact ⟨digit, _, by rw [same, List.cons_append], nonzero⟩

theorem integerPart_toDigits (value : Nat) {rest : List Char} (ends : NumberEnds rest) :
    integerPart (Nat.toDigits 10 value ++ rest) = some (Nat.toDigits 10 value, rest) := by
  by_cases zero : value = 0
  · subst zero
    rfl
  · have areDigits : ∀ char ∈ Nat.toDigits 10 value, char.isDigit = true :=
      fun char member => Nat.isDigit_of_mem_toDigits (by decide) (by decide) member
    have whole : someDigits (Nat.toDigits 10 value ++ rest) =
        some (Nat.toDigits 10 value, rest) := by
      rw [someDigits, digits_whole areDigits ends]
      simp [Nat.toDigits_ne_nil]
    rw [integerPart, whole]
    obtain ⟨digit, later, same, nonzero⟩ := toDigits_cons zero
    intro others starts
    rw [same, List.cons_append] at starts
    exact nonzero (List.cons.inj starts).1

theorem fractionPart_absent {rest : List Char} (ends : NumberEnds rest) :
    fractionPart rest = some ([], rest) := by
  rw [fractionPart]
  rintro later rfl
  exact (ends '.' rfl).2.1 rfl

theorem exponentPart_absent {rest : List Char} (ends : NumberEnds rest) :
    exponentPart rest = some (none, rest) := by
  rw [exponentPart]
  · rintro later rfl
    exact (ends 'e' rfl).2.2.1 rfl
  · rintro later rfl
    exact (ends 'E' rfl).2.2.2 rfl

theorem unsignedNumber_toDigits (negative : Bool) (value : Nat) {rest : List Char}
    (ends : NumberEnds rest) :
    unsignedNumber negative (Nat.toDigits 10 value ++ rest) =
      some (.integer negative value, rest) := by
  simp [unsignedNumber, integerPart_toDigits value ends, fractionPart_absent ends,
    exponentPart_absent ends, Number.integer]

theorem toDigits_starts (value : Nat) :
    ∃ digit later, Nat.toDigits 10 value = digit :: later ∧ digit.isDigit = true := by
  obtain ⟨digit, later, same⟩ := List.exists_cons_of_ne_nil (@Nat.toDigits_ne_nil value 10)
  have member : digit ∈ Nat.toDigits 10 value := by
    rw [same]
    exact List.mem_cons_self
  exact ⟨digit, later, same, Nat.isDigit_of_mem_toDigits (by decide) (by decide) member⟩

theorem number_whole {found : Number} {text rest : List Char} (spelled : NumberText found text)
    (ends : NumberEnds rest) : number (text ++ rest) = some (found, rest) := by
  cases spelled with
  | @natural value _ =>
      rw [number, unsignedNumber_toDigits false value ends]
      obtain ⟨digit, later, same, isDigit⟩ := toDigits_starts value
      intro others starts
      rw [same, List.cons_append] at starts
      rw [(List.cons.inj starts).1] at isDigit
      cases isDigit
  | @negative value _ => exact unsignedNumber_toDigits true value ends

end Scan

inductive TokenText : Token → List Char → Prop where
  | openArray : TokenText .openArray ['[']
  | closeArray : TokenText .closeArray [']']
  | openObject : TokenText .openObject ['\x7b']
  | closeObject : TokenText .closeObject ['\x7d']
  | comma : TokenText .comma [',']
  | colon : TokenText .colon [':']
  | null : TokenText .null ['n', 'u', 'l', 'l']
  | true : TokenText (.bool true) ['t', 'r', 'u', 'e']
  | false : TokenText (.bool false) ['f', 'a', 'l', 's', 'e']
  | number {value : Number} {text : List Char} (spelled : NumberText value text) :
      TokenText (.number value) text
  | string {value : String} {text : List Char} (spelled : StringText value.toList text) :
      TokenText (.string value) ('"' :: text ++ ['"'])

def blanks : List Char := [' ', '\n', '\t', '\r']

/-- The texts of some tokens one after the other, with blanks anywhere between
them. -/
inductive TokensText : List Token → List Char → Prop where
  | nil : TokensText [] []
  | blank {char : Char} {tokens : List Token} {text : List Char} (isBlank : char ∈ blanks)
      (rest : TokensText tokens text) : TokensText tokens (char :: text)
  | token {token : Token} {tokens : List Token} {text later : List Char}
      (first : TokenText token text) (rest : TokensText tokens later) :
      TokensText (token :: tokens) (text ++ later)

def Token.isNumber : Token → Bool
  | .number _ => true
  | _ => false

/-- No number follows another one. -/
def Separated (tokens : List Token) : Prop :=
  tokens.IsChain fun token next => token.isNumber = true → next.isNumber = false

namespace Scan

theorem token_numeric {char : Char} (numeric : char.isDigit = true ∨ char = '-')
    (later : List Char) :
    token (char :: later) =
      (number (char :: later)).map fun result => (.number result.1, result.2) := by
  rw [token]
  · cases number (char :: later) <;> rfl
  all_goals
    intro rest same
    cases same
    exact absurd numeric (by decide)

theorem numeric_starts {found : Number} {text : List Char} (spelled : NumberText found text) :
    ∃ char later, text = char :: later ∧ (char.isDigit = true ∨ char = '-') := by
  cases spelled with
  | @natural value _ =>
      obtain ⟨digit, later, same, isDigit⟩ := toDigits_starts value
      exact ⟨digit, later, same, .inl isDigit⟩
  | negative _ => exact ⟨'-', _, rfl, .inr rfl⟩

/-- The text of a token is read as the token, and where it ends matters only to
numbers. -/
theorem token_whole {found : Token} {text rest : List Char} (spelled : TokenText found text)
    (ends : found.isNumber = true → NumberEnds rest) :
    token (text ++ rest) = some (found, rest) := by
  cases spelled with
  | number spelled =>
      obtain ⟨char, later, rfl, numeric⟩ := numeric_starts spelled
      have whole := number_whole spelled (ends rfl)
      rw [List.cons_append] at whole ⊢
      rw [token_numeric numeric, whole]
      rfl
  | @string value text spelled =>
      obtain ⟨found, read, spells⟩ := pieces_string spelled
      have inside : '"' :: text ++ ['"'] ++ rest = '"' :: (text ++ '"' :: rest) := by simp
      rw [inside, token, read]
      simp [spells]
  | openArray => rfl
  | closeArray => rfl
  | openObject => rfl
  | closeObject => rfl
  | comma => rfl
  | colon => rfl
  | null => rfl
  | true => rfl
  | false => rfl

theorem isBlank_iff {char : Char} : isBlank char = true ↔ char ∈ blanks := by
  simp [isBlank, blanks, or_assoc]

theorem not_blank_of_numeric {char : Char} (numeric : char.isDigit = true ∨ char = '-') :
    isBlank char = false := by
  rw [Bool.eq_false_iff, Ne, isBlank_iff]
  intro member
  simp only [blanks, List.mem_cons, List.not_mem_nil, or_false] at member
  rcases member with rfl | rfl | rfl | rfl <;> exact absurd numeric (by decide)

theorem numberEnds_blank {char : Char} (member : char ∈ blanks) (rest : List Char) :
    NumberEnds (char :: rest) := by
  rintro first ⟨⟩
  simp only [blanks, List.mem_cons, List.not_mem_nil, or_false] at member
  rcases member with rfl | rfl | rfl | rfl <;> decide

/-- A token begins with no blank, and with nothing that a number could go on
with unless it is a number itself. -/
theorem token_starts {found : Token} {text : List Char} (spelled : TokenText found text) :
    ∃ char later, text = char :: later ∧ isBlank char = false ∧
      (found.isNumber = false → ∀ rest, NumberEnds (char :: rest)) := by
  cases spelled with
  | number spelled =>
      obtain ⟨char, later, same, numeric⟩ := numeric_starts spelled
      exact ⟨char, later, same, not_blank_of_numeric numeric, nofun⟩
  | _ => exact ⟨_, _, rfl, rfl, fun _ _ => by rintro _ ⟨⟩; decide⟩

/-- A number ends where the tokens after it do not begin with one. -/
theorem numberEnds_of_spelled {found : List Token} {text : List Char}
    (spelled : TokensText found text)
    (delimited : ∀ next ∈ found.head?, next.isNumber = false) : NumberEnds text := by
  cases spelled with
  | nil => exact nofun
  | blank isBlank _ => exact numberEnds_blank isBlank _
  | token first _ =>
      obtain ⟨char, later, rfl, _, ends⟩ := token_starts first
      exact ends (delimited _ rfl) _

/-- A text that spells some tokens is cut into these tokens. -/
theorem tokens_of_spelled {found : List Token} {text : List Char} (spelled : TokensText found text)
    (separated : Separated found) : tokens text = some found := by
  induction spelled with
  | nil => rw [tokens]
  | blank isBlank _ induction =>
      rw [tokens, if_pos (isBlank_iff.mpr isBlank)]
      exact induction separated
  | @token next found text later first rest induction =>
      obtain ⟨delimited, separated⟩ := List.isChain_cons.mp separated
      have whole := token_whole first fun isNumber =>
        numberEnds_of_spelled rest fun other member => delimited other member isNumber
      obtain ⟨char, others, rfl, solid, _⟩ := token_starts first
      rw [List.cons_append] at whole ⊢
      rw [tokens, if_neg (ne_true_of_eq_false solid)]
      split
      · rename_i failed
        rw [whole] at failed
        cases failed
      · rename_i read
        rw [whole] at read
        cases read
        rw [induction separated]
        rfl

end Scan

theorem TokensText.append {tokens others : List Token} {text later : List Char}
    (first : TokensText tokens text) (second : TokensText others later) :
    TokensText (tokens ++ others) (text ++ later) := by
  induction first with
  | nil => exact second
  | blank isBlank _ induction => exact .blank isBlank induction
  | token first _ induction =>
      rw [List.cons_append, List.append_assoc]
      exact .token first induction

/-- The text of a token without escapes. -/
def Token.plain : Token → List Char
  | .openArray => ['[']
  | .closeArray => [']']
  | .openObject => ['\x7b']
  | .closeObject => ['\x7d']
  | .comma => [',']
  | .colon => [':']
  | .null => ['n', 'u', 'l', 'l']
  | .bool true => ['t', 'r', 'u', 'e']
  | .bool false => ['f', 'a', 'l', 's', 'e']
  | .number value => if value.negative then '-' :: value.whole else value.whole
  | .string text => '"' :: (text.getD "").toList ++ ['"']

/-- Whether a token is a string that needs no escapes or an integer of 63 bits,
if it is a string or a number at all. -/
def Token.isPlain : Token → Bool
  | .number value =>
    let magnitude := Numeral.ofDigits value.whole
    value == .integer value.negative magnitude && magnitude < 2 ^ 63
  | .string text =>
    text.any (·.toList.all fun char => 0x20 ≤ char.toNat && char != '"' && char != '\\')
  | _ => true

theorem stringText_plain {chars : List Char}
    (plain : chars.all (fun char => 0x20 ≤ char.toNat && char != '"' && char != '\\') = true) :
    StringText chars chars := by
  induction chars with
  | nil => exact .nil
  | cons char chars induction =>
      simp only [List.all_cons, Bool.and_eq_true, decide_eq_true_eq, bne_iff_ne] at plain
      obtain ⟨⟨⟨visible, noQuote⟩, noBackslash⟩, later⟩ := plain
      exact .cons (.plain visible noQuote noBackslash) (induction (by simpa using later))

theorem tokenText_plain {token : Token} (plain : token.isPlain = true) :
    TokenText token token.plain := by
  cases token with
  | number value =>
      simp only [Token.isPlain, Bool.and_eq_true, beq_iff_eq, decide_eq_true_eq] at plain
      obtain ⟨same, small⟩ := plain
      rw [same]
      cases value.negative with
      | false => exact .number (.natural (Nat.lt_trans small (by decide)))
      | true => exact .number (.negative (Nat.le_of_lt small))
  | string text =>
      cases text with
      | none => cases plain
      | some text => exact .string (stringText_plain plain)
  | bool value => cases value <;> constructor
  | _ => constructor

theorem tokensText_plain {tokens : List Token} (plain : tokens.all Token.isPlain = true) :
    TokensText tokens (tokens.flatMap Token.plain) := by
  induction tokens with
  | nil => exact .nil
  | cons token tokens induction =>
      obtain ⟨first, later⟩ := Bool.and_eq_true_iff.mp plain
      exact .token (tokenText_plain first) (induction later)

end CBackend.Json
