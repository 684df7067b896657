import Mathlib.Data.List.Basic
import CBackend.C.Statement

/-!
# Spelling of generated names

The names of a function's variables and labels are structured, and a C
compiler sees only their text.  The text loses nothing: registers of
different owners or numbers are spelled differently, a temporary is never
spelled like a register, and labels can be read back.  An owner ends its
lead with an underscore, which no digits contain.
-/

namespace CBackend.C

theorem decimal_injective {left right : Nat}
    (same : Nat.toDigits 10 left = Nat.toDigits 10 right) : left = right := by
  have values := congrArg (fun digits => Nat.ofDigitChars 10 digits 0) same
  simpa using values

/-- A numeral that ends at an underscore can be told from what follows. -/
private theorem numeral_split {left right : Nat} {leftRest rightRest : List Char}
    (absent : '_' ∉ leftRest)
    (same : Nat.toDigits 10 left ++ '_' :: leftRest =
      Nat.toDigits 10 right ++ '_' :: rightRest) :
    left = right ∧ leftRest = rightRest := by
  have split := (List.append_cons_inj_of_notMem
    Nat.underscore_not_in_toDigits absent).mp same
  exact ⟨decimal_injective split.1, split.2.2⟩

private theorem underscore_not_mem_register (number : RegisterNumber) :
    '_' ∉ 'r' :: Nat.toDigits 10 number := by
  simp

namespace Variable

theorem toList_function_register (number : RegisterNumber) :
    (Variable.register .function number).text.toList =
      'r' :: Nat.toDigits 10 number := by
  simp [Variable.text, Owner.lead, toString]

theorem toList_expansion_register (expansion : Nat) (number : RegisterNumber) :
    (Variable.register (.expansion expansion) number).text.toList =
      'i' :: (Nat.toDigits 10 expansion ++
        '_' :: 'r' :: Nat.toDigits 10 number) := by
  simp [Variable.text, Owner.lead, toString]

theorem toList_result (callee : String) :
    (Variable.result callee).text.toList = callee.toList ++ "_ret".toList := by
  simp [Variable.text]

/-- Registers begin with one of two letters. -/
theorem register_text_head (owner : Owner) (number : RegisterNumber) :
    (Variable.register owner number).text.toList.head? ∈ [some 'r', some 'i'] := by
  cases owner with
  | function => simp [toList_function_register]
  | expansion _ => simp [toList_expansion_register]

/-- The text of a register determines its owner and number. -/
theorem register_text_injective {left right : Owner}
    {leftNumber rightNumber : RegisterNumber}
    (same : (Variable.register left leftNumber).text =
      (Variable.register right rightNumber).text) :
    left = right ∧ leftNumber = rightNumber := by
  have characters := congrArg String.toList same
  cases left with
  | function =>
      cases right with
      | function =>
          rw [toList_function_register, toList_function_register] at characters
          exact ⟨rfl, decimal_injective (List.cons.inj characters).2⟩
      | expansion right =>
          rw [toList_function_register, toList_expansion_register] at characters
          exact absurd (List.cons.inj characters).1 (by decide)
  | expansion left =>
      cases right with
      | function =>
          rw [toList_expansion_register, toList_function_register] at characters
          exact absurd (List.cons.inj characters).1 (by decide)
      | expansion right =>
          rw [toList_expansion_register, toList_expansion_register] at characters
          have split := numeral_split (underscore_not_mem_register leftNumber)
            (List.cons.inj characters).2
          have numbers := decimal_injective (List.cons.inj split.2).2
          exact ⟨congrArg Owner.expansion split.1, numbers⟩

theorem result_text_injective {left right : String}
    (same : (Variable.result left).text = (Variable.result right).text) :
    left = right := by
  have characters := congrArg String.toList same
  rw [toList_result, toList_result] at characters
  exact String.toList_injective (List.append_cancel_right characters)

private theorem register_getLast_isDigit (owner : Owner) (number : RegisterNumber) :
    ∃ digit, (Variable.register owner number).text.toList.getLast? = some digit ∧
      digit.isDigit = true := by
  have present : Nat.toDigits 10 number ≠ [] := Nat.toDigits_ne_nil
  refine ⟨(Nat.toDigits 10 number).getLast present, ?_, ?_⟩
  · cases owner with
    | function =>
        rw [toList_function_register, List.getLast?_cons,
          List.getLast?_eq_some_getLast present]
        rfl
    | expansion expansion =>
        rw [toList_expansion_register, ← List.cons_append,
          List.getLast?_append_of_ne_nil _ (List.cons_ne_nil _ _),
          List.getLast?_cons_cons, List.getLast?_cons,
          List.getLast?_eq_some_getLast present]
        rfl
  · exact Nat.isDigit_of_mem_toDigits (by decide) (by decide)
      (List.getLast_mem present)

/-- A register ends in a digit and a temporary in a letter. -/
theorem register_text_ne_result_text (owner : Owner) (number : RegisterNumber)
    (callee : String) :
    (Variable.register owner number).text ≠ (Variable.result callee).text := by
  intro same
  obtain ⟨digit, last, isDigit⟩ := register_getLast_isDigit owner number
  rw [same, toList_result, List.getLast?_append_of_ne_nil _ (by decide)] at last
  have letter : digit = 't' := by
    simpa using last.symm
  rw [letter] at isDigit
  exact absurd isDigit (by decide)

end Variable

namespace Label

theorem toList_function_block (number : BlockNumber) :
    (Label.block .function number).text.toList =
      'b' :: 'b' :: Nat.toDigits 10 number := by
  simp [Label.text, Owner.lead, toString]

theorem toList_expansion_block (expansion : Nat) (number : BlockNumber) :
    (Label.block (.expansion expansion) number).text.toList =
      'i' :: (Nat.toDigits 10 expansion ++
        '_' :: 'b' :: 'b' :: Nat.toDigits 10 number) := by
  simp [Label.text, Owner.lead, toString]

theorem toList_finish (expansion : Nat) :
    (Label.finish expansion).text.toList =
      'i' :: (Nat.toDigits 10 expansion ++ '_' :: ['e', 'n', 'd']) := by
  simp [Label.text, toString]

private theorem underscore_not_mem_block (number : BlockNumber) :
    '_' ∉ 'b' :: 'b' :: Nat.toDigits 10 number := by
  simp

/-- The text of a label determines the label. -/
theorem text_injective {left right : Label} (same : left.text = right.text) :
    left = right := by
  have characters := congrArg String.toList same
  rcases left with ⟨_ | leftExpansion, leftNumber⟩ | leftExpansion <;>
    rcases right with ⟨_ | rightExpansion, rightNumber⟩ | rightExpansion <;>
    simp only [toList_function_block, toList_expansion_block, toList_finish]
      at characters
  · have numbers := decimal_injective (List.cons.inj (List.cons.inj characters).2).2
    rw [numbers]
  · exact absurd (List.cons.inj characters).1 (by decide)
  · exact absurd (List.cons.inj characters).1 (by decide)
  · exact absurd (List.cons.inj characters).1 (by decide)
  · have split := numeral_split (underscore_not_mem_block leftNumber)
      (List.cons.inj characters).2
    have numbers := decimal_injective (List.cons.inj (List.cons.inj split.2).2).2
    rw [split.1, numbers]
  · have split := numeral_split (underscore_not_mem_block leftNumber)
      (List.cons.inj characters).2
    exact absurd (List.cons.inj split.2).1 (by decide)
  · exact absurd (List.cons.inj characters).1 (by decide)
  · have split := numeral_split (by decide) (List.cons.inj characters).2
    exact absurd (List.cons.inj split.2).1 (by decide)
  · have split := numeral_split (by decide) (List.cons.inj characters).2
    rw [split.1]

end Label

end CBackend.C
