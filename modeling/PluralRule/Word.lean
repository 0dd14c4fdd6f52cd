/-!
The range of the integers that formulas compute with: signed words of 64 bits.
-/

namespace PluralRule.Word

def least : Int := -9223372036854775808

def greatest : Int := 9223372036854775807

def InRange (value : Int) : Prop := least ≤ value ∧ value ≤ greatest

instance (value : Int) : Decidable (InRange value) :=
  inferInstanceAs (Decidable (least ≤ value ∧ value ≤ greatest))

end PluralRule.Word
