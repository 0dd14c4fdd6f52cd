import Mathlib.Algebra.Ring.Int.Defs
import Mathlib.Algebra.Ring.Nat
import PluralRule.Number
import PluralRule.Word

/-!
Which integers are written out. Under a limit these are the integers below the
power of ten with as many zeros; no limit is so low that it leaves out a word.
-/

namespace PluralRule

namespace Text

theorem narrow_iff_lt_pow [Writing] (value : Int) :
    Narrow value ↔ ∀ digits ∈ Writing.limit, value.natAbs < 10 ^ digits := by
  refine forall₂_congr fun digits limit => ?_
  have least := Writing.roomy digits limit
  exact Nat.length_toDigits_le_iff (by decide) (by omega)

theorem narrow_of_natAbs_lt [Writing] {value : Int} {width : Nat} (room : width ≤ 640)
    (small : value.natAbs < 10 ^ width) : Narrow value := by
  refine (narrow_iff_lt_pow value).mpr fun digits limit => lt_of_lt_of_le small ?_
  have least := Writing.roomy digits limit
  exact Nat.pow_le_pow_right (by decide) (by omega)

theorem not_narrow_pow [Writing] {digits : Nat} (limit : Writing.limit = some digits) :
    ¬ Narrow (10 ^ digits) := by
  intro narrow
  have below := (narrow_iff_lt_pow _).mp narrow digits limit
  rw [Int.natAbs_pow] at below
  exact Nat.lt_irrefl _ below

/-- The least integer above zero that is too long where nothing else is set. -/
@[irreducible]
def leastWide : Int := 10 ^ 4300

theorem not_narrow_leastWide : ¬ @Narrow Writing.standard leastWide := by
  rw [leastWide]
  exact @not_narrow_pow Writing.standard 4300 rfl

end Text

theorem Word.narrow [Writing] {value : Int} (word : Word.InRange value) : Text.Narrow value := by
  have width : value.natAbs < 10 ^ 19 := by
    have low := word.1
    have high := word.2
    rw [Word.least] at low
    rw [Word.greatest] at high
    omega
  exact Text.narrow_of_natAbs_lt (by decide) width

/-- The number counts as a word. -/
def Number.InRange (number : Number) : Prop := Word.InRange number.value

theorem Word.not_inRange_leastWide : ¬ Word.InRange Text.leastWide := by
  intro word
  exact Text.not_narrow_leastWide (@Word.narrow Writing.standard _ word)

end PluralRule
