import PluralRule.Formula.Reading
import PluralRule.Proofs.Magnitude

/-!
The value of a digit text against its literal. Counting digits never decides
anything that the value would decide otherwise. Main statement: a digit text
has a literal exactly when its value is a word, and the literal is that value.
-/

namespace PluralRule.Formula

open Text (denoted digitsValue isDigit natural? unpadded)

theorem greatest_lt_pow_width : Word.greatest < (10 ^ literalWidth : Nat) := by decide

theorem literalValue?_of_natural? (text : String) (value : Nat)
    (read : natural? text.toList = some value) :
    literalValue? text = if (value : Int) ≤ Word.greatest then some (value : Int) else none := by
  rcases (Text.natural?_eq_some_iff text.toList value).mp read with ⟨-, decimal, valued⟩
  have same := (digitsValue_dropWhile_zero text.toList).trans valued
  simp only [literalValue?, same]
  by_cases long : literalWidth < (text.toList.dropWhile (· = '0')).length
  · have reaches := (Text.width_lt_length_unpadded_iff decimal literalWidth).mp long
    rw [← Text.digitsValue_eq_denoted, valued] at reaches
    have exceeds := greatest_lt_pow_width
    rw [if_pos long, if_neg (by omega)]
  · rw [if_neg long]
    by_cases exceeds : Word.greatest < (value : Int)
    · rw [if_pos exceeds, if_neg (by omega)]
    · rw [if_neg exceeds, if_pos (by omega)]

theorem literalValue?_eq_some_iff (text : String) (value : Nat) (literal : Int)
    (read : natural? text.toList = some value) :
    literalValue? text = some literal ↔ literal = value ∧ (value : Int) ≤ Word.greatest := by
  rw [literalValue?_of_natural? text value read]
  split
  · next small => simp [small, eq_comm]
  · next large => simp [large]

theorem le_greatest_iff (value : Nat) : (value : Int) ≤ Word.greatest ↔ value ≤ 2 ^ 63 - 1 := by
  rw [Word.greatest]
  omega

theorem literalValue?_eq_denoted (text : String) (filled : text ≠ "")
    (decimal : ∀ digit ∈ text.toList, isDigit digit = true) :
    literalValue? text =
      if denoted text.toList ≤ 2 ^ 63 - 1 then some (denoted text.toList : Int) else none := by
  have read : natural? text.toList = some (denoted text.toList) := by
    apply (Text.natural?_eq_some_iff text.toList (denoted text.toList)).mpr
    exact ⟨fun empty => filled (String.toList_eq_nil_iff.mp empty), decimal,
      Text.digitsValue_eq_denoted text.toList⟩
  simp only [literalValue?_of_natural? text (denoted text.toList) read, le_greatest_iff]

/-- Literals are exact. Wherever an operand may stand, a digit text of any length is read as
its value if that is a word; otherwise the reading fails, with a report that quotes the
text as it stands. Taking off zeros keeps the value, and to count the digits that are left
before comparing it rejects no more: they are more than the greatest word has only if the
value reaches a power of ten that no word reaches. -/
theorem literal_exact (token : Token) (spelled : token.kind = .number) (filled : token.text ≠ "")
    (decimal : ∀ digit ∈ token.text.toList, isDigit digit = true) :
    (∀ limits context start waiting,
        Reading.takeOperand limits context start waiting token =
          if denoted token.text.toList ≤ 2 ^ 63 - 1 then
            .next (.operator context start waiting
              (.literal token.position (.int (denoted token.text.toList))))
          else .fail (.literal token)) ∧
      (∀ [Writing] (source : String), (Fault.literal token).report source =
        some ⟨"Integer literal out of range: " ++ token.text, some token.position, some source,
          .literal token.text⟩) ∧
      denoted (unpadded token.text.toList) = denoted token.text.toList ∧
      (literalWidth < (unpadded token.text.toList).length ∨
          2 ^ 63 - 1 < denoted (unpadded token.text.toList) ↔
        2 ^ 63 - 1 < denoted (unpadded token.text.toList)) ∧
      (literalWidth < (unpadded token.text.toList).length ↔
        10 ^ literalWidth ≤ denoted token.text.toList) ∧
      literalWidth = (Nat.digits 10 (2 ^ 63 - 1)).length := by
  have counted := Text.width_lt_length_unpadded_iff decimal literalWidth
  have width : literalWidth = (Nat.digits 10 (2 ^ 63 - 1)).length := by norm_num [literalWidth]
  refine ⟨?_, fun source => rfl, Text.denoted_unpadded _, ?_, counted, width⟩
  · intro limits context start waiting
    have read := literalValue?_eq_denoted token.text filled decimal
    by_cases small : denoted token.text.toList ≤ 2 ^ 63 - 1
    · rw [if_pos small] at read ⊢
      simp only [Reading.takeOperand, spelled, read]
    · rw [if_neg small] at read ⊢
      simp only [Reading.takeOperand, spelled, read]
  · have above : 2 ^ 63 - 1 < 10 ^ literalWidth := by decide
    rw [counted, Text.denoted_unpadded]
    omega

theorem literal_exact_paddedGreatest :
    (∀ context, Reading.takeOperand .standard context 0 []
        ⟨.number, "009223372036854775807", 2⟩ =
      .next (.operator context 0 [] (.literal 2 (.int 9223372036854775807)))) ∧
      (∀ context, Reading.takeOperand .standard context 0 []
        ⟨.number, "009223372036854775808", 2⟩ =
      .fail (.literal ⟨.number, "009223372036854775808", 2⟩)) ∧
      ¬ literalWidth < (unpadded "009223372036854775808".toList).length := by
  have greatest : denoted "009223372036854775807".toList = 9223372036854775807 := by decide
  have after : denoted "009223372036854775808".toList = 9223372036854775808 := by decide
  have read := literal_exact ⟨.number, "009223372036854775807", 2⟩ rfl (by decide)
    (List.all_eq_true.mp (by decide))
  have refused := literal_exact ⟨.number, "009223372036854775808", 2⟩ rfl (by decide)
    (List.all_eq_true.mp (by decide))
  simp only [greatest] at read
  simp only [after] at refused
  obtain ⟨failed, -, -, -, counted, -⟩ := refused
  refine ⟨fun context => read.1 .standard context 0 [],
    fun context => failed .standard context 0 [], ?_⟩
  rw [counted]
  decide

end PluralRule.Formula
