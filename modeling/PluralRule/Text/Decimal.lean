/-!
Integers in decimal: writing them, and reading a run of digits.
-/

namespace PluralRule.Text

def isDigit (character : Char) : Bool := '0' ≤ character && character ≤ '9'

def naturalText (number : Nat) : String := String.ofList (Nat.toDigits 10 number)

def integerText : Int → String
  | .ofNat number => naturalText number
  | .negSucc number => "-" ++ naturalText (number + 1)

/-- The number that a run of decimal digits denotes; an empty run is zero. -/
def digitsValue (digits : List Char) : Nat := Nat.ofDigitChars 10 digits 0

theorem digitsValue_toDigits (number : Nat) : digitsValue (Nat.toDigits 10 number) = number :=
  Nat.ofDigitChars_toDigits (by decide) (by decide)

theorem toDigits_eq_cons (number : Nat) :
    ∃ first rest, Nat.toDigits 10 number = first :: rest ∧
      ∀ digit ∈ first :: rest, isDigit digit = true := by
  have digits : ∀ digit ∈ Nat.toDigits 10 number, isDigit digit = true :=
    fun digit member => Nat.isDigit_of_mem_toDigits (by decide) (by decide) member
  cases spelled : Nat.toDigits 10 number with
  | nil => exact absurd spelled Nat.toDigits_ne_nil
  | cons first rest => exact ⟨first, rest, rfl, spelled ▸ digits⟩

def natural? (characters : List Char) : Option Nat :=
  if characters ≠ [] ∧ characters.all isDigit then some (digitsValue characters) else none

theorem natural?_eq_some_iff (characters : List Char) (number : Nat) :
    natural? characters = some number ↔
      characters ≠ [] ∧ (∀ c ∈ characters, isDigit c = true) ∧
        digitsValue characters = number := by
  simp only [natural?, List.all_eq_true]
  split
  · next holds =>
      constructor
      · intro read
        exact ⟨holds.1, holds.2, Option.some.inj read⟩
      · rintro ⟨-, -, rfl⟩
        rfl
  · next fails =>
      simp only [reduceCtorEq, false_iff]
      rintro ⟨filled, digits, -⟩
      exact fails ⟨filled, digits⟩

theorem natural?_naturalText (number : Nat) :
    natural? (naturalText number).toList = some number := by
  rw [naturalText, String.toList_ofList, natural?_eq_some_iff]
  rcases toDigits_eq_cons number with ⟨first, rest, spelled, digits⟩
  have value := digitsValue_toDigits number
  rw [spelled] at value ⊢
  exact ⟨List.cons_ne_nil first rest, digits, value⟩

end PluralRule.Text
