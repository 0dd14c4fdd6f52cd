import PluralRule.Proofs.Evaluation.Origin

/-!
Formulas with other labels: other places, numbers of the same value and other
foreign leaves. Main statement: evaluation does not look at labels. A relabelled
formula has the same value, or fails at the relabelled part.
-/

namespace PluralRule

/-- What is put in the place of the labels of a formula. -/
structure Relabelling where
  place : Int → Int
  number : Number → Number
  leaf : Foreign → Foreign
  keeps : ∀ given, (number given).value = given.value

namespace Relabelling

def places (move : Int → Int) : Relabelling := ⟨move, id, id, fun _ => rfl⟩

def essence : Relabelling :=
  ⟨fun _ => 0, fun number => .int number.value, fun leaf => ⟨leaf.identity, none, none⟩,
    fun _ => rfl⟩

end Relabelling

def Formula.relabel (labels : Relabelling) : Formula → Formula
  | .literal position number => .literal (labels.place position) (labels.number number)
  | .quantity position => .quantity (labels.place position)
  | .unary position operator operand =>
      .unary (labels.place position) operator (operand.relabel labels)
  | .binary position operator left right =>
      .binary (labels.place position) operator (left.relabel labels) (right.relabel labels)
  | .choice position condition consequent alternate =>
      .choice (labels.place position) (condition.relabel labels) (consequent.relabel labels)
        (alternate.relabel labels)
  | .foreign leaf => .foreign (labels.leaf leaf)

def Failure.relabel (labels : Relabelling) : Failure → Failure
  | .quantity position value => .quantity (labels.place position) value
  | .divisionByZero node => .divisionByZero (node.relabel labels)
  | .moduloByZero node => .moduloByZero (node.relabel labels)
  | .overflow node => .overflow (node.relabel labels)
  | .unknownOperator symbol => .unknownOperator symbol
  | .foreign leaf => .foreign (labels.leaf leaf)

namespace Formula

variable (labels : Relabelling)

theorem relabel_places (formula : Formula) (move : Int → Int) :
    formula.relabel (.places move) = formula.mapPosition move := by
  induction formula with
  | literal position number => rfl
  | quantity position => rfl
  | unary position operator operand ih =>
      rw [relabel, ih]
      rfl
  | binary position operator left right leftIh rightIh =>
      rw [relabel, leftIh, rightIh]
      rfl
  | choice position condition consequent alternate firstIh secondIh thirdIh =>
      rw [relabel, firstIh, secondIh, thirdIh]
      rfl
  | foreign leaf => rfl

theorem relabel_essence (formula : Formula) : formula.relabel .essence = formula.essence := by
  induction formula with
  | literal position number => rfl
  | quantity position => rfl
  | unary position operator operand ih =>
      rw [relabel, ih]
      rfl
  | binary position operator left right leftIh rightIh =>
      rw [relabel, leftIh, rightIh]
      rfl
  | choice position condition consequent alternate firstIh secondIh thirdIh =>
      rw [relabel, firstIh, secondIh, thirdIh]
      rfl
  | foreign leaf => rfl

theorem checked_relabel (node : Formula) (value : Int) :
    checked (node.relabel labels) value = (checked node value).mapError (.relabel labels) := by
  unfold checked
  split <;> rfl

theorem arithmetic_relabel (node : Formula) (operation : Arithmetic) (first second : Int) :
    arithmetic (node.relabel labels) operation first second =
      (arithmetic node operation first second).mapError (.relabel labels) := by
  cases operation with
  | sum => exact checked_relabel labels node _
  | difference => exact checked_relabel labels node _
  | product => exact checked_relabel labels node _
  | quotient =>
      by_cases zero : second = 0
      · rw [arithmetic, arithmetic, if_pos zero, if_pos zero]
        rfl
      · rw [arithmetic, arithmetic, if_neg zero, if_neg zero]
        exact checked_relabel labels node _
  | remainder =>
      by_cases zero : second = 0
      · rw [arithmetic, arithmetic, if_pos zero, if_pos zero]
        rfl
      · rw [arithmetic, arithmetic, if_neg zero, if_neg zero]
        rfl

theorem joined_relabel (node : Formula) (operator : BinaryOperator) (first second : Int) :
    joined (node.relabel labels) operator first second =
      (joined node operator first second).mapError (.relabel labels) := by
  cases operator with
  | known operation =>
      cases operation with
      | logical connective => rfl
      | relational relation => rfl
      | numeric operation => exact arithmetic_relabel labels node operation first second
  | «unknown» symbol strange => rfl

/-- Labels decide nothing: with other labels the same part fails, with its new labels. -/
theorem evaluate_relabel (formula : Formula) (quantity : Int) :
    (formula.relabel labels).evaluate quantity =
      (formula.evaluate quantity).mapError (.relabel labels) := by
  induction formula with
  | literal position number => exact congrArg Except.ok (labels.keeps number)
  | quantity position =>
      simp only [relabel, evaluate]
      split <;> rfl
  | unary position operator operand ih =>
      simp only [relabel, evaluate, ih]
      cases operand.evaluate quantity with
      | error failure => rfl
      | ok value =>
          cases operator with
          | negation => rfl
          | sign => exact checked_relabel labels (.unary position .sign operand) (-value)
          | «unknown» symbol strange =>
              exact checked_relabel labels (.unary position (.unknown symbol strange) operand)
                (-value)
  | binary position operator left right leftIh rightIh =>
      -- Whether the left operand settles the value depends on its value alone.
      simp only [relabel, evaluate_joined, leftIh, rightIh]
      cases left.evaluate quantity with
      | error failure => rfl
      | ok first =>
          simp only [Except.mapError, Except.bind]
          cases operator.settled? first with
          | some value => rfl
          | none =>
              cases right.evaluate quantity with
              | error failure => rfl
              | ok second =>
                  exact joined_relabel labels (.binary position operator left right) operator first
                    second
  | choice position condition consequent alternate firstIh secondIh thirdIh =>
      cases outcome : condition.evaluate quantity with
      | error failure =>
          simp only [relabel, evaluate, firstIh, outcome]
          rfl
      | ok chosen =>
          have moved : (condition.relabel labels).evaluate quantity = .ok chosen := by
            rw [firstIh, outcome]
            rfl
          rw [relabel, evaluate_choice _ _ moved, evaluate_choice _ _ outcome]
          split
          · exact secondIh
          · exact thirdIh
  | foreign leaf => rfl

end Formula

end PluralRule
