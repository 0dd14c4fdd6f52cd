import PluralRule.Text.Decimal
import PluralRule.Word

/-!
Literals: the value of a digit text. Leading zeros do not count; a value that
is no word has no literal. Counting digits settles the long texts before any
value is computed.
-/

namespace PluralRule.Formula

/-- The number of digits of the greatest word. -/
def literalWidth : Nat := 19

def literalValue? (text : String) : Option Int :=
  let digits := text.toList.dropWhile (· = '0')
  if literalWidth < digits.length then none
  else
    let value := (Text.digitsValue digits : Int)
    if Word.greatest < value then none else some value

end PluralRule.Formula
