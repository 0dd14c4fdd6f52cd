import Mathlib.Data.Nat.Digits.Lemmas
import PluralRule.Text.Decimal

/-!
Digit counts and magnitudes. Without the zeros in front, a digit text lists the base ten
digits of the number it denotes. Main statement: the digits that are left are more than a
width exactly when the number reaches that power of ten.
-/

namespace PluralRule

open Text (digitsValue isDigit)

theorem digitsValue_dropWhile_zero (digits : List Char) :
    digitsValue (digits.dropWhile (· = '0')) = digitsValue digits := by
  induction digits with
  | nil => rfl
  | cons first rest ih =>
      by_cases zero : first = '0'
      · subst zero
        simpa [digitsValue, Nat.ofDigitChars_cons] using ih
      · rw [List.dropWhile_cons_of_neg (by simpa using zero)]

theorem digit_pos (character : Char) (digit : isDigit character = true)
    (nonzero : character ≠ '0') : 1 ≤ character.toNat - '0'.toNat := by
  simp only [isDigit, Bool.and_eq_true, decide_eq_true_eq] at digit
  have above : '0'.toNat ≤ character.toNat := digit.1
  have apart : character.toNat ≠ '0'.toNat := fun same => nonzero (Char.toNat_inj.mp same)
  omega

namespace Text

def digitValue (character : Char) : Nat := character.toNat - '0'.toNat

/-- The number that digits denote in base ten, the last one counting for itself. -/
def denoted (digits : List Char) : Nat := Nat.ofDigits 10 (digits.reverse.map digitValue)

def unpadded (digits : List Char) : List Char := digits.dropWhile (· = '0')

theorem digitsValue_eq_denoted (digits : List Char) : digitsValue digits = denoted digits := by
  induction digits with
  | nil => rfl
  | cons first rest ih =>
      rw [digitsValue, Nat.ofDigitChars_cons, Nat.ofDigitChars_eq_ofDigitChars_zero, denoted,
        List.reverse_cons, List.map_append, Nat.ofDigits_append, ← denoted, ← ih]
      simp [digitsValue, digitValue, Nat.add_comm]

theorem denoted_unpadded (digits : List Char) : denoted (unpadded digits) = denoted digits := by
  rw [← digitsValue_eq_denoted, ← digitsValue_eq_denoted]
  exact digitsValue_dropWhile_zero digits

theorem digitValue_lt (character : Char) (digit : isDigit character = true) :
    digitValue character < 10 := by
  simp only [isDigit, Bool.and_eq_true, decide_eq_true_eq] at digit
  have below : character.toNat ≤ '9'.toNat := digit.2
  have nine : '9'.toNat = '0'.toNat + 9 := rfl
  rw [digitValue]
  omega

section Digits

variable {digits : List Char} (decimal : ∀ digit ∈ digits, isDigit digit = true)

include decimal

theorem digits_denoted (leading : digits.head? ≠ some '0') :
    Nat.digits 10 (denoted digits) = digits.reverse.map digitValue := by
  apply Nat.digits_ofDigits 10 (by decide)
  · intro value member
    obtain ⟨digit, among, rfl⟩ := List.mem_map.mp member
    exact digitValue_lt digit (decimal digit (List.mem_reverse.mp among))
  · intro filled
    cases digits with
    | nil => exact absurd rfl filled
    | cons first rest =>
        have positive := digit_pos first (decimal first List.mem_cons_self)
          fun zero => leading (congrArg some zero)
        simpa [digitValue] using Nat.pos_iff_ne_zero.mp positive

theorem width_lt_length_unpadded_iff (width : Nat) :
    width < (unpadded digits).length ↔ 10 ^ width ≤ denoted digits := by
  have leading : (unpadded digits).head? ≠ some '0' := by
    have stopped := List.head?_dropWhile_not (· = '0') digits
    intro zero
    rw [unpadded] at zero
    simp [zero] at stopped
  have kept : ∀ digit ∈ unpadded digits, isDigit digit = true :=
    fun digit member => decimal digit (List.dropWhile_subset (· = '0') member)
  have listed := congrArg List.length (digits_denoted kept leading)
  rw [List.length_map, List.length_reverse, denoted_unpadded] at listed
  rw [← listed]
  exact Nat.lt_digits_length_iff (by decide) (denoted digits)

end Digits

end Text

end PluralRule
