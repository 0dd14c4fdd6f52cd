import PluralRule.Text.Writing

/-!
Numbers as formulas hold them. A truth value may stand for the integer one or
zero: it counts as that integer and equals it, and it is written as itself.
-/

namespace PluralRule

def Text.truthText (holds : Bool) : String := if holds then "True" else "False"

inductive Number where
  | int (value : Int)
  | truth (holds : Bool)
  deriving DecidableEq, Repr

namespace Number

def value : Number → Int
  | .int value => value
  | .truth holds => if holds then 1 else 0

def text : Number → String
  | .int value => Text.integerText value
  | .truth holds => Text.truthText holds

def written? [Writing] : Number → Option String
  | .int value => Text.written? value
  | .truth holds => some (Text.truthText holds)

variable [Writing]

theorem narrow_truth (holds : Bool) : Text.Narrow (truth holds).value := by
  intro digits limit
  have least := Writing.roomy digits limit
  have one : (Nat.toDigits 10 (truth holds).value.natAbs).length = 1 := by cases holds <;> decide
  omega

theorem written?_eq (number : Number) :
    number.written? = if Text.Narrow number.value then some number.text else none := by
  cases number with
  | int value => rfl
  | truth holds => exact (if_pos (narrow_truth holds)).symm

end Number

end PluralRule
