import PluralRule.Formula.Render
import PluralRule.Report
import PluralRule.Word

/-!
Evaluation of a formula at a quantity. Truth is one and falsity zero, any
other number counts as true; results outside the range of words are failures.
A failure keeps the node that failed. What evaluation does not reach, the
branch not taken and the operand that is not needed, cannot fail.
-/

namespace PluralRule

inductive Failure where
  | quantity (position value : Int)
  | divisionByZero (node : Formula)
  | moduloByZero (node : Formula)
  | overflow (node : Formula)
  | unknownOperator (symbol : String)
  | foreign (leaf : Foreign)
  deriving DecidableEq, Repr

/-- The outcome that is shown to users: a value, or the message and the kind of a failure. -/
inductive Answer where
  | value (value : Int)
  | failure (message kind : String)
  deriving DecidableEq, Repr

namespace Formula

def truth (holds : Bool) : Int := if holds then 1 else 0

def checked (node : Formula) (value : Int) : Except Failure Int :=
  if Word.InRange value then .ok value else .error (.overflow node)

def comparison : Comparison → Int → Int → Bool
  | .equal, left, right => left = right
  | .notEqual, left, right => left ≠ right
  | .less, left, right => left < right
  | .atMost, left, right => left ≤ right
  | .greater, left, right => left > right
  | .atLeast, left, right => left ≥ right

def quotientTowardZero (left right : Int) : Int :=
  let magnitude : Int := (left.natAbs / right.natAbs : Nat)
  if left < 0 ↔ right < 0 then magnitude else -magnitude

def remainderTowardZero (left right : Int) : Int := left - right * quotientTowardZero left right

/-- Quotients go toward zero and remainders have the sign of the dividend. A
remainder of words is a word and is not checked. -/
def arithmetic (node : Formula) : Arithmetic → Int → Int → Except Failure Int
  | .sum, left, right => checked node (left + right)
  | .difference, left, right => checked node (left - right)
  | .product, left, right => checked node (left * right)
  | .quotient, left, right =>
      if right = 0 then .error (.divisionByZero node)
      else checked node (quotientTowardZero left right)
  | .remainder, left, right =>
      if right = 0 then .error (.moduloByZero node) else .ok (remainderTowardZero left right)

def evaluate (quantity : Int) : Formula → Except Failure Int
  | .literal _ number => .ok number.value
  | .quantity position =>
      if Word.InRange quantity then .ok quantity else .error (.quantity position quantity)
  | .unary position operator operand => do
      let value ← evaluate quantity operand
      match operator with
      | .negation => pure (truth (value = 0))
      | _ => checked (.unary position operator operand) (-value)
  | .binary position operator left right => do
      let first ← evaluate quantity left
      match operator with
      | .known (.logical .conjunction) =>
          if first = 0 then pure 0
          else do
            let second ← evaluate quantity right
            pure (truth (second ≠ 0))
      | .known (.logical .disjunction) =>
          if first ≠ 0 then pure 1
          else do
            let second ← evaluate quantity right
            pure (truth (second ≠ 0))
      | .known (.relational relation) => do
          let second ← evaluate quantity right
          pure (truth (comparison relation first second))
      | .known (.numeric operation) => do
          let second ← evaluate quantity right
          arithmetic (.binary position operator left right) operation first second
      | .unknown symbol _ => do
          let _ ← evaluate quantity right
          .error (.unknownOperator symbol)
  | .choice _ condition consequent alternate => do
      let chosen ← evaluate quantity condition
      if chosen ≠ 0 then evaluate quantity consequent else evaluate quantity alternate
  | .foreign leaf => .error (.foreign leaf)

theorem quotientTowardZero_eq_tdiv (left right : Int) :
    quotientTowardZero left right = left.tdiv right := by
  have plain (number : Nat) : ¬ Int.ofNat number < 0 :=
    Int.not_lt.mpr (Int.natCast_nonneg number)
  have below := Int.negSucc_lt_zero
  unfold quotientTowardZero
  cases left with
  | ofNat dividend =>
      cases right with
      | ofNat divisor =>
          rw [if_pos (iff_of_false (plain _) (plain _))]
          rfl
      | negSucc divisor =>
          rw [if_neg fun same => plain _ (same.mpr (below _))]
          rfl
  | negSucc dividend =>
      cases right with
      | ofNat divisor =>
          rw [if_neg fun same => plain _ (same.mp (below _))]
          rfl
      | negSucc divisor =>
          rw [if_pos (iff_of_true (below _) (below _))]
          rfl

theorem remainderTowardZero_eq_tmod (left right : Int) :
    remainderTowardZero left right = left.tmod right := by
  rw [remainderTowardZero, quotientTowardZero_eq_tdiv, Int.tmod_def]

end Formula

namespace Failure

variable [Writing]

def nodeReport (source : String) (mishap : Mishap) (wording : String) (node : Formula) :
    Except Unwritable Report := do
  let text ← node.render
  pure ⟨wording ++ " in '" ++ text ++ "'", node.position?, some source,
    .evaluation mishap node.symbol? (some text)⟩

/-- A report quotes the quantity, the node or the leaf that failed, and there is none
on what cannot be written. -/
def report (source : String) : Failure → Except Unwritable Report
  | .quantity position value => do
      let text ← Unwritable.orWide (Text.written? value)
      pure ⟨"Quantity " ++ text ++ " is outside the signed 64-bit range",
        some position, some source, .evaluation .overflow none none⟩
  | .divisionByZero node => nodeReport source .divisionByZero "Division by zero" node
  | .moduloByZero node => nodeReport source .moduloByZero "Modulo by zero" node
  | .overflow node => nodeReport source .overflow "Integer overflow" node
  | .unknownOperator symbol =>
      .ok ⟨"Unknown operator: " ++ symbol, none, some source, .evaluation .general none none⟩
  | .foreign leaf => do
      let quoted ← Unwritable.orWide leaf.quoted
      pure ⟨Foreign.complaint quoted, none, some source, .evaluation .general none none⟩

end Failure

section

variable [Writing]

/-- The value of a formula at a quantity, or the report on its failure. The
source is what the report shows; without one it shows an empty line. -/
def Formula.evaluateReported (source : Option String) (quantity : Int) (formula : Formula) :
    Except Unwritable (Except Report Int) :=
  match formula.evaluate quantity with
  | .ok value => .ok (.ok value)
  | .error failure => do
      let report ← failure.report (source.getD "")
      pure (.error report)

def Formula.answer (source : Option String) (quantity : Int) (formula : Formula) :
    Except Unwritable Answer := do
  match ← formula.evaluateReported source quantity with
  | .ok value => pure (.value value)
  | .error report => pure (.failure report.message report.kind)

end

end PluralRule
