import PluralRule.Formula
import PluralRule.Report
import PluralRule.Word

/-!
The exact meaning of formulas, over integers without bounds and without regard
to how formulas are evaluated. A zero divisor has no value. Along with the
value go the parts that it demands, in the order in which operands are
demanded, each part behind its own operands. Main statements: a part that has
an exact value in the range of words does not fail, and every formula demands
itself last.
-/

namespace PluralRule

def indicator (condition : Prop) [Decidable condition] : Int := if condition then 1 else 0

def Comparison.Holds : Comparison → Int → Int → Prop
  | .equal, left, right => left = right
  | .notEqual, left, right => left ≠ right
  | .less, left, right => left < right
  | .atMost, left, right => left ≤ right
  | .greater, left, right => right < left
  | .atLeast, left, right => right ≤ left

instance (comparison : Comparison) (left right : Int) : Decidable (comparison.Holds left right) :=
  match comparison with
  | .equal => inferInstanceAs (Decidable (left = right))
  | .notEqual => inferInstanceAs (Decidable (left ≠ right))
  | .less => inferInstanceAs (Decidable (left < right))
  | .atMost => inferInstanceAs (Decidable (left ≤ right))
  | .greater => inferInstanceAs (Decidable (right < left))
  | .atLeast => inferInstanceAs (Decidable (right ≤ left))

def Arithmetic.exact : Arithmetic → Int → Int → Option Int
  | .sum, left, right => some (left + right)
  | .difference, left, right => some (left - right)
  | .product, left, right => some (left * right)
  | .quotient, left, right => if right = 0 then none else some (left.tdiv right)
  | .remainder, left, right =>
      if right = 0 then none else some (left - right * left.tdiv right)

namespace BinaryOperator

/-- The value that the left operand settles alone. -/
def settled? : BinaryOperator → Int → Option Int
  | .known (.logical .conjunction), left => if left = 0 then some 0 else none
  | .known (.logical .disjunction), left => if left = 0 then none else some 1
  | _, _ => none

def exact : BinaryOperator → Int → Int → Option Int
  | .known (.logical _), _, right => some (indicator (right ≠ 0))
  | .known (.relational comparison), left, right => some (indicator (comparison.Holds left right))
  | .known (.numeric arithmetic), left, right => arithmetic.exact left right
  | .unknown .., _, _ => none

end BinaryOperator

def UnaryOperator.exact : UnaryOperator → Int → Option Int
  | .negation, value => some (indicator (value = 0))
  | .sign, value => some (-value)
  | .unknown .., _ => none

namespace Formula

def exact (quantity : Int) : Formula → Option Int
  | .literal _ number => some number.value
  | .quantity _ => some quantity
  | .unary _ operator operand => (operand.exact quantity).bind operator.exact
  | .binary _ operator left right =>
      (left.exact quantity).bind fun first =>
        match operator.settled? first with
        | some value => some value
        | none => (right.exact quantity).bind (operator.exact first)
  | .choice _ condition consequent alternate =>
      (condition.exact quantity).bind fun chosen =>
        if chosen ≠ 0 then consequent.exact quantity else alternate.exact quantity
  | .foreign _ => none

/-- The parts that the value demands. A right operand is not demanded where the
left one settles the value, and neither is the branch that is not taken. -/
def demanded (quantity : Int) : Formula → List Formula
  | .unary position operator operand =>
      operand.demanded quantity ++ [.unary position operator operand]
  | .binary position operator left right =>
      left.demanded quantity ++
        (if ((left.exact quantity).bind operator.settled?).isSome then []
          else right.demanded quantity) ++
        [.binary position operator left right]
  | .choice position condition consequent alternate =>
      condition.demanded quantity ++
        (match condition.exact quantity with
          | some chosen =>
              if chosen ≠ 0 then consequent.demanded quantity else alternate.demanded quantity
          | none => []) ++
        [.choice position condition consequent alternate]
  | leaf => [leaf]

def Fits (quantity : Int) (part : Formula) : Prop :=
  ∃ value, part.exact quantity = some value ∧ Word.InRange value

/-- A part fails by itself: its divisor is zero, or its exact value is no word. -/
inductive Fails (quantity : Int) : Formula → Mishap → Prop where
  | quotient {position : Int} {left right : Formula} (zero : right.exact quantity = some 0) :
      Fails quantity (.binary position (.known (.numeric .quotient)) left right) .divisionByZero
  | remainder {position : Int} {left right : Formula} (zero : right.exact quantity = some 0) :
      Fails quantity (.binary position (.known (.numeric .remainder)) left right) .moduloByZero
  | range {part : Formula} {value : Int} (exact : part.exact quantity = some value)
      (outside : ¬ Word.InRange value) : Fails quantity part .overflow

theorem Fits.not_fails {quantity : Int} {part : Formula} (fits : part.Fits quantity)
    (mishap : Mishap) : ¬ part.Fails quantity mishap := by
  rcases fits with ⟨value, exact, inside⟩
  intro fails
  cases fails with
  | @quotient position left right zero =>
      cases first : left.exact quantity <;>
        simp [Formula.exact, first, zero, BinaryOperator.settled?, BinaryOperator.exact,
          Arithmetic.exact] at exact
  | @remainder position left right zero =>
      cases first : left.exact quantity <;>
        simp [Formula.exact, first, zero, BinaryOperator.settled?, BinaryOperator.exact,
          Arithmetic.exact] at exact
  | range again outside =>
      rw [exact] at again
      cases again
      exact outside inside

theorem demanded_last (quantity : Int) (formula : Formula) :
    ∃ parts, formula.demanded quantity = parts ++ [formula] := by
  cases formula with
  | literal position number => exact ⟨[], rfl⟩
  | quantity position => exact ⟨[], rfl⟩
  | unary position operator operand => exact ⟨_, rfl⟩
  | binary position operator left right => exact ⟨_, rfl⟩
  | choice position condition consequent alternate => exact ⟨_, rfl⟩
  | foreign leaf => exact ⟨[], rfl⟩

theorem self_mem_demanded (quantity : Int) (formula : Formula) :
    formula ∈ formula.demanded quantity := by
  rcases demanded_last quantity formula with ⟨parts, split⟩
  rw [split]
  exact List.mem_concat_self

end Formula

end PluralRule
