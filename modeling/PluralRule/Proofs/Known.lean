import PluralRule.Formula.Render

/-!
Known formulas: those that are built from the operators of the language and
from leaves that are no foreign values, with numbers that a predicate admits.
-/

namespace PluralRule

def UnaryOperator.Known : UnaryOperator → Prop
  | .negation => True
  | .sign => True
  | .unknown .. => False

def BinaryOperator.Known : BinaryOperator → Prop
  | .known _ => True
  | .unknown .. => False

namespace Formula

def Known (admits : Number → Prop) : Formula → Prop
  | .literal _ number => admits number
  | .quantity _ => True
  | .unary _ operator operand => operator.Known ∧ operand.Known admits
  | .binary _ operator left right => operator.Known ∧ left.Known admits ∧ right.Known admits
  | .choice _ condition consequent alternate =>
      condition.Known admits ∧ consequent.Known admits ∧ alternate.Known admits
  | .foreign _ => False

theorem Known.genuine {admits : Number → Prop} {formula : Formula}
    (known : formula.Known admits) : formula.Genuine := by
  induction formula with
  | literal position number => trivial
  | quantity position => trivial
  | unary position operator operand ih => exact ih known.2
  | binary position operator left right leftIh rightIh =>
      exact ⟨leftIh known.2.1, rightIh known.2.2⟩
  | choice position condition consequent alternate firstIh secondIh thirdIh =>
      exact ⟨firstIh known.1, secondIh known.2.1, thirdIh known.2.2⟩
  | foreign leaf => exact known

theorem Known.narrow [Writing] {admits : Number → Prop} {formula : Formula}
    (known : formula.Known admits)
    (short : ∀ number, admits number → Text.Narrow number.value) : formula.Narrow := by
  induction formula with
  | literal position number => exact short number known
  | quantity position => trivial
  | unary position operator operand ih => exact ih known.2
  | binary position operator left right leftIh rightIh =>
      exact ⟨leftIh known.2.1, rightIh known.2.2⟩
  | choice position condition consequent alternate firstIh secondIh thirdIh =>
      exact ⟨firstIh known.1, secondIh known.2.1, thirdIh known.2.2⟩
  | foreign leaf => trivial

theorem Known.rendered [Writing] {admits : Number → Prop} {formula : Formula}
    (known : formula.Known admits)
    (short : ∀ number, admits number → Text.Narrow number.value) : formula.Rendered :=
  ⟨known.genuine, known.narrow short⟩

end Formula

end PluralRule
