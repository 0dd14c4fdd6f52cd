import PluralRule.Formula.Evaluate
import PluralRule.Value

/-!
Refusals: values that cannot be used as what they are given for. They are no
faults of a formula and have no place in one.
-/

namespace PluralRule

inductive Refusal where
  | quantity (given : Value)
  | count (given : Value)
  /-- A report on a failure is not written. -/
  | unwritable (reason : Unwritable)
  deriving Repr

def Refusal.message [Writing] : Refusal → String
  | .quantity given => "Quantity must be an integer, got " ++ given.typeName
  | .count given =>
      match given.printed with
      | some text => "nplurals must be a positive integer, got " ++ text
      | none => Unwritable.wide.message
  | .unwritable reason => reason.message

namespace Value

def asQuantity (value : Value) : Except Refusal Int :=
  match value.asInteger? with
  | some quantity => .ok quantity
  | none => .error (.quantity value)

theorem asQuantity_int (quantity : Int) : (Value.int quantity).asQuantity = .ok quantity := rfl

theorem asQuantity_cases (quantity : Value) :
    (∃ number, quantity = .int number) ∨
      (quantity.asQuantity = .error (.quantity quantity) ∧
        ∀ number, quantity ≠ .int number) := by
  cases found : quantity.asInteger? with
  | some number => exact Or.inl ⟨number, (asInteger?_eq_some_iff quantity number).mp found⟩
  | none =>
      refine Or.inr ⟨by rw [asQuantity, found], fun number same => ?_⟩
      rw [(asInteger?_eq_some_iff quantity number).mpr same] at found
      cases found

end Value

namespace Formula

variable [Writing]

def answerTo (source : Option String) (quantity : Value) (formula : Formula) :
    Except Refusal Answer := do
  let number ← quantity.asQuantity
  (formula.answer source number).mapError .unwritable

def valueAt (source : Option String) (quantity : Value) (formula : Formula) :
    Except Refusal (Except Report Int) := do
  let number ← quantity.asQuantity
  (formula.evaluateReported source number).mapError .unwritable

end Formula

end PluralRule
