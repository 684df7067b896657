import CBackend.Json.Token

/-!
# Cutting a text into JSON tokens

Blanks between tokens have no meaning.  Two tokens that are not separated
are still two tokens; whether they may stand side by side is decided by the
reader.  Every scanner leaves less text than it was given.
-/

namespace CBackend.Json.Scan

def isBlank (c : Char) : Bool := c == ' ' || c == '\n' || c == '\t' || c == '\r'

/-- A part of a string: a character, or a surrogate written as an escape. -/
inductive Piece where
  | char (value : Char)
  | surrogate (code : Nat)
deriving DecidableEq, Repr

def Piece.ofCode (code : Nat) : Piece :=
  if 0xD800 ≤ code ∧ code < 0xE000 then .surrogate code else .char (Char.ofNat code)

def hexDigit? (c : Char) : Option Nat :=
  if '0' ≤ c ∧ c ≤ '9' then some (c.toNat - '0'.toNat)
  else if 'a' ≤ c ∧ c ≤ 'f' then some (c.toNat - 'a'.toNat + 10)
  else if 'A' ≤ c ∧ c ≤ 'F' then some (c.toNat - 'A'.toNat + 10)
  else none

/-- The code of four hexadecimal digits. -/
def hexCode? (a b c d : Char) : Option Nat := do
  return (← hexDigit? a) * 0x1000 + (← hexDigit? b) * 0x100 + (← hexDigit? c) * 0x10 +
    (← hexDigit? d)

/-- What a backslash followed by one character stands for. -/
def escaped? : Char → Option Char
  | '"' => some '"'
  | '\\' => some '\\'
  | '/' => some '/'
  | 'b' => some '\x08'
  | 'f' => some '\x0c'
  | 'n' => some '\n'
  | 'r' => some '\r'
  | 't' => some '\t'
  | _ => none

/-- The parts of a string up to its closing quote, and what follows it.
Control characters do not stand in a string. -/
def pieces : List Char → Option (List Piece × List Char)
  | [] => none
  | '"' :: rest => some ([], rest)
  | '\\' :: 'u' :: a :: b :: c :: d :: rest => do
    let code ← hexCode? a b c d
    let (later, after) ← pieces rest
    return (.ofCode code :: later, after)
  | '\\' :: c :: rest => do
    let value ← escaped? c
    let (later, after) ← pieces rest
    return (.char value :: later, after)
  | c :: rest =>
    if c.toNat < 0x20 then none
    else do
      let (later, after) ← pieces rest
      return (.char c :: later, after)

/-- The characters that the parts of a string spell.  A surrogate counts only
as half of a pair. -/
def spell : List Piece → Option (List Char)
  | [] => some []
  | .char c :: later => (spell later).map (c :: ·)
  | .surrogate high :: .surrogate low :: later =>
    if high < 0xDC00 ∧ 0xDC00 ≤ low then
      (spell later).map (Char.ofNat (0x10000 + (high - 0xD800) * 0x400 + (low - 0xDC00)) :: ·)
    else none
  | .surrogate _ :: _ => none

theorem pieces_shorter {text after : List Char} {found : List Piece}
    (read : pieces text = some (found, after)) : after.length < text.length := by
  fun_induction pieces text generalizing found with
  | case1 => simp at read
  | case2 => simp_all
  | case3 a b c d rest induction =>
      simp only [bind, Option.bind_eq_some_iff] at read
      obtain ⟨code, _, ⟨later, tail⟩, shorter, same⟩ := read
      cases same
      have smaller : tail.length < rest.length := induction shorter
      simp only [List.length_cons]
      omega
  | case4 c rest _ induction =>
      simp only [bind, Option.bind_eq_some_iff] at read
      obtain ⟨value, _, ⟨later, tail⟩, shorter, same⟩ := read
      cases same
      have smaller : tail.length < rest.length := induction shorter
      simp only [List.length_cons]
      omega
  | case5 => simp at read
  | case6 c rest _ _ _ _ induction =>
      simp only [bind, Option.bind_eq_some_iff] at read
      obtain ⟨⟨later, tail⟩, shorter, same⟩ := read
      cases same
      have smaller : tail.length < rest.length := induction shorter
      simp only [List.length_cons]
      omega

def digits (text : List Char) : List Char × List Char :=
  (text.takeWhile Char.isDigit, text.dropWhile Char.isDigit)

/-- One digit or more at the front. -/
def someDigits (text : List Char) : Option (List Char × List Char) :=
  if (digits text).1.isEmpty then none else some (digits text)

/-- An integer part: a zero stands alone. -/
def integerPart : List Char → Option (List Char × List Char)
  | '0' :: rest => some (['0'], rest)
  | text => someDigits text

/-- A fraction, if there is a point. -/
def fractionPart : List Char → Option (List Char × List Char)
  | '.' :: rest => someDigits rest
  | text => some ([], text)

/-- An optional sign, and whether it is a minus. -/
def sign : List Char → Bool × List Char
  | '-' :: rest => (true, rest)
  | '+' :: rest => (false, rest)
  | text => (false, text)

/-- The digits of an exponent, after an optional sign. -/
def signedExponent (text : List Char) : Option (Option Int × List Char) := do
  let (negative, rest) := sign text
  let (found, after) ← someDigits rest
  let value : Int := Numeral.ofDigits found
  return (some (if negative then -value else value), after)

/-- An exponent, if it is announced. -/
def exponentPart : List Char → Option (Option Int × List Char)
  | 'e' :: rest => signedExponent rest
  | 'E' :: rest => signedExponent rest
  | text => some (none, text)

/-- A number without its sign. -/
def unsignedNumber (negative : Bool) (text : List Char) : Option (Number × List Char) := do
  let (whole, rest) ← integerPart text
  let (fraction, rest) ← fractionPart rest
  let (power, rest) ← exponentPart rest
  return (⟨negative, whole, fraction, power⟩, rest)

def number : List Char → Option (Number × List Char)
  | '-' :: rest => unsignedNumber true rest
  | text => unsignedNumber false text

theorem someDigits_shorter {text found after : List Char}
    (read : someDigits text = some (found, after)) : after.length < text.length := by
  unfold someDigits at read
  split at read
  · cases read
  · rename_i nonempty
    cases text with
    | nil => simp [digits] at nonempty
    | cons c rest =>
        have drop : (rest.dropWhile Char.isDigit).length ≤ rest.length :=
          (List.dropWhile_suffix _).length_le
        by_cases digit : c.isDigit
        · simp only [digits, List.dropWhile_cons, digit, if_true, Option.some.injEq,
            Prod.mk.injEq] at read
          rw [← read.2, List.length_cons]
          omega
        · simp [digits, digit] at nonempty

theorem integerPart_shorter {text found after : List Char}
    (read : integerPart text = some (found, after)) : after.length < text.length := by
  unfold integerPart at read
  split at read
  · cases read
    simp
  · exact someDigits_shorter read

theorem fractionPart_le {text found after : List Char}
    (read : fractionPart text = some (found, after)) : after.length ≤ text.length := by
  unfold fractionPart at read
  split at read
  · have smaller := someDigits_shorter read
    simp only [List.length_cons]
    omega
  · cases read
    exact Nat.le_refl _

theorem sign_le (text : List Char) : (sign text).2.length ≤ text.length := by
  unfold sign
  split <;> simp

theorem signedExponent_le {text after : List Char} {found : Option Int}
    (read : signedExponent text = some (found, after)) : after.length ≤ text.length := by
  simp only [signedExponent, bind, Option.bind_eq_some_iff] at read
  obtain ⟨⟨digits, tail⟩, shorter, same⟩ := read
  cases same
  exact Nat.le_of_lt (Nat.lt_of_lt_of_le (someDigits_shorter shorter) (sign_le text))

theorem exponentPart_le {text after : List Char} {found : Option Int}
    (read : exponentPart text = some (found, after)) : after.length ≤ text.length := by
  unfold exponentPart at read
  split at read
  · have smaller := signedExponent_le read
    simp only [List.length_cons]
    omega
  · have smaller := signedExponent_le read
    simp only [List.length_cons]
    omega
  · cases read
    exact Nat.le_refl _

theorem unsignedNumber_shorter {negative : Bool} {text after : List Char} {found : Number}
    (read : unsignedNumber negative text = some (found, after)) :
    after.length < text.length := by
  simp only [unsignedNumber, bind, Option.bind_eq_some_iff] at read
  obtain ⟨⟨whole, first⟩, atWhole, ⟨fraction, second⟩, atFraction, ⟨power, third⟩, atPower, same⟩ :=
    read
  cases same
  have inWhole := integerPart_shorter atWhole
  have inFraction := fractionPart_le atFraction
  have inPower : third.length ≤ second.length := exponentPart_le atPower
  exact Nat.lt_of_le_of_lt (Nat.le_trans inPower inFraction) inWhole

theorem number_shorter {text after : List Char} {found : Number}
    (read : number text = some (found, after)) : after.length < text.length := by
  unfold number at read
  split at read
  · have smaller := unsignedNumber_shorter read
    simp only [List.length_cons]
    omega
  · exact unsignedNumber_shorter read

/-- The token at the front of a text that does not begin with a blank. -/
def token : List Char → Option (Token × List Char)
  | '[' :: rest => some (.openArray, rest)
  | ']' :: rest => some (.closeArray, rest)
  | '\x7b' :: rest => some (.openObject, rest)
  | '\x7d' :: rest => some (.closeObject, rest)
  | ',' :: rest => some (.comma, rest)
  | ':' :: rest => some (.colon, rest)
  | 'n' :: 'u' :: 'l' :: 'l' :: rest => some (.null, rest)
  | 't' :: 'r' :: 'u' :: 'e' :: rest => some (.bool true, rest)
  | 'f' :: 'a' :: 'l' :: 's' :: 'e' :: rest => some (.bool false, rest)
  | '"' :: rest => do
    let (found, after) ← pieces rest
    return (.string ((spell found).map String.ofList), after)
  | text => do
    let (found, after) ← number text
    return (.number found, after)

theorem token_shorter {text after : List Char} {found : Token}
    (read : token text = some (found, after)) : after.length < text.length := by
  unfold token at read
  split at read
  case h_10 =>
      simp only [bind, Option.bind_eq_some_iff] at read
      obtain ⟨⟨parts, tail⟩, shorter, same⟩ := read
      cases same
      have smaller := pieces_shorter shorter
      exact Nat.lt_succ_of_lt smaller
  case h_11 =>
      simp only [bind, Option.bind_eq_some_iff] at read
      obtain ⟨⟨value, tail⟩, shorter, same⟩ := read
      cases same
      exact number_shorter shorter
  all_goals
    cases read
    simp only [List.length_cons]
    omega

def tokens (text : List Char) : Option (List Token) :=
  match text with
  | [] => some []
  | c :: rest =>
    if isBlank c then tokens rest
    else
      match _ : token (c :: rest) with
      | none => none
      | some (found, after) => (tokens after).map (found :: ·)
termination_by text.length
decreasing_by
  · simp
  · exact token_shorter ‹_›

end CBackend.Json.Scan
