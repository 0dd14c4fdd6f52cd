import PluralRule.Text.Decimal

/-!
Writing values out. How many digits an integer may have to be written is a
setting of the process that runs, which can do without a limit; an integer
that is too long has no text. Which characters are shown as they are depends on
the process as well.
-/

namespace PluralRule

/-- What the process that runs decides about written values. -/
class Writing where
  /-- The greatest number of digits of a written integer, if there is one. -/
  limit : Option Nat
  /-- No limit can be set lower. -/
  roomy : ∀ digits ∈ limit, 640 ≤ digits
  /-- What is said of an integer that is too long. -/
  refusal : String
  /-- The character is written by its code point inside quotes. -/
  isInvisible : Char → Bool

/-- The limit where nothing else is set. Of the characters it hides the controls. -/
@[reducible]
def Writing.standard : Writing where
  limit := some 4300
  roomy := by simp
  refusal := "Exceeds the limit (4300 digits) for integer string conversion"
  isInvisible character :=
    character.toNat < 0x20 || (0x7F ≤ character.toNat && character.toNat < 0xA1)

namespace Text

variable [Writing]

/-- The integer has no more digits than are written; its sign does not count. -/
def Narrow (value : Int) : Prop :=
  ∀ digits ∈ Writing.limit, (Nat.toDigits 10 value.natAbs).length ≤ digits

instance (value : Int) : Decidable (Narrow value) :=
  inferInstanceAs (Decidable (∀ digits ∈ Writing.limit, _))

/-- The text of an integer that is not too long. -/
def written? (value : Int) : Option String :=
  if Narrow value then some (integerText value) else none

theorem written?_of_narrow {value : Int} (narrow : Narrow value) :
    written? value = some (integerText value) := if_pos narrow

theorem written?_of_wide {value : Int} (wide : ¬ Narrow value) : written? value = none :=
  if_neg wide

end Text

end PluralRule
