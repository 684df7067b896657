import CBackend.Json.Reader
import CBackend.Proofs.Json.Spelling

/-!
# Texts of JSON values

A value is a sequence of tokens, and a text that spells these tokens spells the
value.  Such a text is read as the value, whatever blanks and escapes it has.

A spelled value is sound: its strings are texts, and its numbers are integers
of 64 bits, which are far from infinite.
-/

namespace CBackend.Json

mutual

def tokens : Json → List Token
  | .null => [.null]
  | .bool value => [.bool value]
  | .number value => [.number value]
  | .string text => [.string text]
  | .array [] => [.openArray, .closeArray]
  | .array (item :: later) => .openArray :: item.tokens ++ itemsTokens later
  | .object [] => [.openObject, .closeObject]
  | .object (⟨key, value⟩ :: later) =>
    .openObject :: .string key :: .colon :: value.tokens ++ membersTokens later

/-- The items of an array after the first one, and its end. -/
def itemsTokens : List Json → List Token
  | [] => [.closeArray]
  | item :: later => .comma :: item.tokens ++ itemsTokens later

/-- The members of an object after the first one, and its end. -/
def membersTokens : List Member → List Token
  | [] => [.closeObject]
  | ⟨key, value⟩ :: later =>
    .comma :: .string key :: .colon :: value.tokens ++ membersTokens later

end

/-- A text that spells the value, blanks around and inside of it included. -/
def SpelledBy (value : Json) (text : String) : Prop := TokensText value.tokens text.toList

theorem separated_cons {mark : Token} {tokens : List Token} (noNumber : mark.isNumber = false)
    (separated : Separated tokens) : Separated (mark :: tokens) := by
  apply separated.cons
  intro next _ isNumber
  rw [noNumber] at isNumber
  cases isNumber

theorem separated_append {tokens later : List Token} (separated : Separated tokens)
    (laterSeparated : Separated later)
    (delimited : ∀ next ∈ later.head?, next.isNumber = false) : Separated (tokens ++ later) :=
  separated.append laterSeparated fun _ _ next member _ => delimited next member

theorem itemsTokens_delimited (items : List Json) :
    ∀ next ∈ (itemsTokens items).head?, next.isNumber = false := by
  cases items <;> (rintro _ ⟨⟩; rfl)

theorem membersTokens_delimited (members : List Member) :
    ∀ next ∈ (membersTokens members).head?, next.isNumber = false := by
  rcases members with _ | ⟨⟨_, _⟩, _⟩ <;> (rintro _ ⟨⟩; rfl)

mutual

theorem tokens_separated : ∀ value : Json, Separated value.tokens
  | .null | .bool _ | .number _ | .string _ => List.isChain_singleton _
  | .array [] => separated_cons rfl (List.isChain_singleton _)
  | .array (item :: later) =>
    separated_cons rfl (separated_append (tokens_separated item) (itemsTokens_separated later)
      (itemsTokens_delimited later))
  | .object [] => separated_cons rfl (List.isChain_singleton _)
  | .object (⟨_, value⟩ :: later) =>
    separated_cons rfl (separated_cons rfl (separated_cons rfl
      (separated_append (tokens_separated value) (membersTokens_separated later)
        (membersTokens_delimited later))))

theorem itemsTokens_separated : ∀ items : List Json, Separated (itemsTokens items)
  | [] => List.isChain_singleton _
  | item :: later =>
    separated_cons rfl (separated_append (tokens_separated item) (itemsTokens_separated later)
      (itemsTokens_delimited later))

theorem membersTokens_separated : ∀ members : List Member, Separated (membersTokens members)
  | [] => List.isChain_singleton _
  | ⟨_, value⟩ :: later =>
    separated_cons rfl (separated_cons rfl (separated_cons rfl
      (separated_append (tokens_separated value) (membersTokens_separated later)
        (membersTokens_delimited later))))

end

/-- No value begins with the end of an array. -/
theorem tokens_starts (value : Json) :
    ∃ first later, value.tokens = first :: later ∧ first ≠ .closeArray := by
  cases value with
  | array items => cases items <;> exact ⟨_, _, rfl, nofun⟩
  | object members => rcases members with _ | ⟨⟨_, _⟩, _⟩ <;> exact ⟨_, _, rfl, nofun⟩
  | _ => exact ⟨_, _, rfl, nofun⟩

/-- The first item of an array is read as any value. -/
theorem firstItem_tokens (value : Json) (stack : List Frame) (rest : List Token) :
    (value.tokens ++ rest).foldlM step (.firstItem stack) =
      (value.tokens ++ rest).foldlM step (.value (.array [] :: stack)) := by
  obtain ⟨first, later, same, noEnd⟩ := tokens_starts value
  rw [same, List.cons_append, List.foldlM_cons, List.foldlM_cons, step, step]
  exact noEnd

mutual

theorem tokens_read (value : Json) (stack : List Frame) (rest : List Token) :
    (value.tokens ++ rest).foldlM step (.value stack) =
      rest.foldlM step (.complete value stack) := by
  cases value with
  | null => rfl
  | bool _ => rfl
  | number _ => rfl
  | string _ => rfl
  | array items =>
      cases items with
      | nil => rfl
      | cons item later =>
          calc
            _ = (item.tokens ++ (itemsTokens later ++ rest)).foldlM step (.firstItem stack) := by
              simp only [tokens, List.cons_append, List.append_assoc]
              rfl
            _ = _ := by
              rw [firstItem_tokens, tokens_read item, itemsTokens_read later]
              rfl
  | object members =>
      cases members with
      | nil => rfl
      | cons member later =>
          obtain ⟨key, value⟩ := member
          calc
            _ = (value.tokens ++ (membersTokens later ++ rest)).foldlM step
                (.value (.object [] key :: stack)) := by
              simp only [tokens, List.cons_append, List.append_assoc]
              rfl
            _ = _ := by
              rw [tokens_read value, membersTokens_read later]
              rfl

theorem itemsTokens_read (items : List Json) (value : Json) (before : List Json)
    (stack : List Frame) (rest : List Token) :
    (itemsTokens items ++ rest).foldlM step (.complete value (.array before :: stack)) =
      rest.foldlM step (.complete (.array ((value :: before).reverse ++ items)) stack) := by
  cases items with
  | nil =>
      rw [List.append_nil]
      rfl
  | cons item later =>
      calc
        _ = (item.tokens ++ (itemsTokens later ++ rest)).foldlM step
            (.value (.array (value :: before) :: stack)) := by
          simp only [itemsTokens, List.cons_append, List.append_assoc]
          rfl
        _ = _ := by
          rw [tokens_read item, itemsTokens_read later, List.reverse_cons, List.append_assoc]
          rfl

theorem membersTokens_read (members : List Member) (key : Option String) (value : Json)
    (before : List Member) (stack : List Frame) (rest : List Token) :
    (membersTokens members ++ rest).foldlM step (.complete value (.object before key :: stack)) =
      rest.foldlM step
        (.complete (.object ((⟨key, value⟩ :: before).reverse ++ members)) stack) := by
  cases members with
  | nil =>
      rw [List.append_nil]
      rfl
  | cons member later =>
      obtain ⟨nextKey, next⟩ := member
      calc
        _ = (next.tokens ++ (membersTokens later ++ rest)).foldlM step
            (.value (.object (⟨key, value⟩ :: before) nextKey :: stack)) := by
          simp only [membersTokens, List.cons_append, List.append_assoc]
          rfl
        _ = _ := by
          rw [tokens_read next, membersTokens_read later, List.reverse_cons, List.append_assoc]
          rfl

end

theorem ofTokens?_tokens (value : Json) : ofTokens? value.tokens = some value := by
  have read := tokens_read value [] []
  rw [List.append_nil] at read
  rw [ofTokens?, read]
  rfl

theorem ofText?_of_spelled {value : Json} {text : String} (spelled : value.SpelledBy text) :
    ofText? text = some value := by
  rw [ofText?, Scan.tokens_of_spelled spelled (tokens_separated value)]
  exact ofTokens?_tokens value

namespace Number

/-- Digits that the significand has room for are all taken into it. -/
theorem gather_whole {significand : Nat} {digits : List Char}
    (room : Nat.ofDigitChars 10 digits significand < significandBound) :
    gather significand digits = (Nat.ofDigitChars 10 digits significand, 0) := by
  induction digits generalizing significand with
  | nil => rfl
  | cons digit later induction =>
      rw [Nat.ofDigitChars_cons] at room ⊢
      have extended : 10 * significand + (digit.toNat - '0'.toNat) < significandBound := by
        rw [Nat.ofDigitChars_eq_ofDigitChars_zero] at room
        have positive : 0 < 10 ^ later.length := Nat.pow_pos (by decide)
        have grows := Nat.le_mul_of_pos_left (10 * significand + (digit.toNat - '0'.toNat)) positive
        omega
      rw [gather, Numeral.digitValue, if_pos extended]
      exact induction room

theorem scaled_integer (negative : Bool) {value : Nat} (small : value < 2 ^ 64) :
    (integer negative value).scaled = (value, 0) := by
  have spelled : Nat.ofDigitChars 10 (Nat.toDigits 10 value) 0 = value :=
    Nat.ofDigitChars_toDigits (by decide) (by decide)
  have taken : gather 0 (Nat.toDigits 10 value) = (value, 0) := by
    rw [gather_whole (spelled.symm ▸ small), spelled]
  simp [scaled, integer, taken, gather]

theorem round_le (value : Nat) :
    DoublePrecision.round value ≤
      value + Nat.pow 2 (value.log2 + 1 - DoublePrecision.significantBits) := by
  unfold DoublePrecision.round DoublePrecision.nearestMultiple
  generalize Nat.pow 2 (value.log2 + 1 - DoublePrecision.significantBits) = unit
  have below : value / unit * unit ≤ value := Nat.div_mul_le_self value unit
  dsimp only
  split
  · rw [Nat.succ_mul]
    omega
  · omega

theorem integer_isFinite (negative : Bool) {value : Nat} (small : value < 2 ^ 64) :
    (integer negative value).isFinite = true := by
  have one : DoublePrecision.round 1 = 1 := DoublePrecision.round_of_lt (by decide)
  have bits : value.log2 < 64 := by
    by_cases zero : value = 0
    · subst zero
      decide
    · exact (Nat.log2_lt zero).mpr small
  have unit : Nat.pow 2 (value.log2 + 1 - DoublePrecision.significantBits) ≤ 2 ^ 11 :=
    Nat.pow_le_pow_right (by decide) (by rw [DoublePrecision.significantBits]; omega)
  have rounded : DoublePrecision.round value < 2 ^ 65 := by
    have near := round_le value
    omega
  have finite : DoublePrecision.round value < DoublePrecision.overflow :=
    Nat.lt_of_lt_of_le rounded (by decide +kernel)
  rw [isFinite, scaled_integer negative small]
  simp [one, finite]

/-- An unsigned integer is read as itself below any bound that it keeps. -/
theorem natural?_integer {bound value : Nat} (small : value < bound) :
    (integer false value).natural? bound = some value := by
  have spelled : Numeral.ofDigits (Nat.toDigits 10 value) = value :=
    Nat.ofDigitChars_toDigits (by decide) (by decide)
  simp [natural?, integer, isInteger, spelled, small]

end Number

def Token.isSound : Token → Bool
  | .number value => value.isFinite
  | .string text => text.isSome
  | _ => true

theorem tokenText_sound {token : Token} {text : List Char} (spelled : TokenText token text) :
    token.isSound = true := by
  cases spelled with
  | number spelled =>
      cases spelled with
      | natural small => exact Number.integer_isFinite false small
      | negative small => exact Number.integer_isFinite true (Nat.lt_of_le_of_lt small (by decide))
  | _ => rfl

theorem tokensText_sound {tokens : List Token} {text : List Char}
    (spelled : TokensText tokens text) : tokens.all Token.isSound = true := by
  induction spelled with
  | nil => rfl
  | blank _ _ induction => exact induction
  | token first _ induction =>
      rw [List.all_cons, tokenText_sound first, induction]
      rfl

mutual

/-- A value is sound if its tokens are. -/
theorem tokens_all_sound (value : Json) : value.tokens.all Token.isSound = value.isSound := by
  cases value with
  | array items =>
      cases items with
      | nil => rfl
      | cons item later =>
          simp [tokens, Token.isSound, isSound, itemsSound, tokens_all_sound item,
            itemsTokens_all_sound later]
  | object members =>
      cases members with
      | nil => rfl
      | cons member later =>
          obtain ⟨key, value⟩ := member
          simp [tokens, Token.isSound, isSound, membersSound, tokens_all_sound value,
            membersTokens_all_sound later, Bool.and_assoc]
  | _ => simp [tokens, Token.isSound, isSound]

theorem itemsTokens_all_sound (items : List Json) :
    (itemsTokens items).all Token.isSound = itemsSound items := by
  cases items with
  | nil => rfl
  | cons item later =>
      simp [itemsTokens, Token.isSound, itemsSound, tokens_all_sound item,
        itemsTokens_all_sound later]

theorem membersTokens_all_sound (members : List Member) :
    (membersTokens members).all Token.isSound = membersSound members := by
  cases members with
  | nil => rfl
  | cons member later =>
      obtain ⟨key, value⟩ := member
      simp [membersTokens, Token.isSound, membersSound, tokens_all_sound value,
        membersTokens_all_sound later, Bool.and_assoc]

end

theorem isSound_of_spelled {value : Json} {text : String} (spelled : value.SpelledBy text) :
    value.isSound = true := by
  rw [← tokens_all_sound]
  exact tokensText_sound spelled

end CBackend.Json
