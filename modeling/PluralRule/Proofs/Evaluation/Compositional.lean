import PluralRule.Proofs.Evaluation.Diagnosis

/-!
Parts of formulas put into their surroundings. A frame is a node with one child
left open, and the frames around a part, the outermost first, make up a formula
with one open place. Main statement: what is put into the place decides nothing
but through its value, nothing at all where the place is skipped, and where the
place is not skipped the failure of the part is the failure of the whole.
-/

namespace PluralRule

namespace Failure

end Failure

/-- Evaluations come out alike in a view of failures: with one value, or with
failures that the view does not tell apart. -/
def AlikeIn {View : Type} (view : Failure → View) (first second : Except Failure Int) : Prop :=
  first.mapError view = second.mapError view

structure SeenAlike {View : Type} (view : Failure → View) (node other : Formula) : Prop where
  overflow : view (.overflow node) = view (.overflow other)
  divisionByZero : view (.divisionByZero node) = view (.divisionByZero other)
  moduloByZero : view (.moduloByZero node) = view (.moduloByZero other)

namespace Formula

/-- A node with an open place for one of its children. -/
inductive Frame where
  | inOperand (position : Int) (operator : UnaryOperator)
  | inLeft (position : Int) (operator : BinaryOperator) (right : Formula)
  | inRight (position : Int) (operator : BinaryOperator) (left : Formula)
  | inCondition (position : Int) (consequent alternate : Formula)
  | inConsequent (position : Int) (condition alternate : Formula)
  | inAlternate (position : Int) (condition consequent : Formula)
  deriving DecidableEq, Repr

namespace Frame

def fill : Frame → Formula → Formula
  | .inOperand position operator, part => .unary position operator part
  | .inLeft position operator right, part => .binary position operator part right
  | .inRight position operator left, part => .binary position operator left part
  | .inCondition position consequent alternate, part => .choice position part consequent alternate
  | .inConsequent position condition alternate, part => .choice position condition part alternate
  | .inAlternate position condition consequent, part => .choice position condition consequent part

def others : Frame → List Formula
  | .inOperand .. => []
  | .inLeft _ _ right => [right]
  | .inRight _ _ left => [left]
  | .inCondition _ consequent alternate => [consequent, alternate]
  | .inConsequent _ condition alternate => [condition, alternate]
  | .inAlternate _ condition consequent => [condition, consequent]

/-- Evaluation passes over the open place: the left operand settles the value, the
other branch is taken, or something in front of the place fails. -/
inductive Skips (quantity : Int) : Frame → Prop where
  | conjunction {position : Int} {left : Formula} (zero : left.evaluate quantity = .ok 0) :
      Skips quantity (.inRight position (.known (.logical .conjunction)) left)
  | disjunction {position value : Int} {left : Formula}
      (given : left.evaluate quantity = .ok value) (nonzero : value ≠ 0) :
      Skips quantity (.inRight position (.known (.logical .disjunction)) left)
  | consequent {position : Int} {condition alternate : Formula}
      (zero : condition.evaluate quantity = .ok 0) :
      Skips quantity (.inConsequent position condition alternate)
  | alternate {position value : Int} {condition consequent : Formula}
      (given : condition.evaluate quantity = .ok value) (nonzero : value ≠ 0) :
      Skips quantity (.inAlternate position condition consequent)
  | behindLeft {position : Int} {operator : BinaryOperator} {left : Formula} {failure : Failure}
      (failed : left.evaluate quantity = .error failure) :
      Skips quantity (.inRight position operator left)
  | consequentBehind {position : Int} {condition alternate : Formula} {failure : Failure}
      (failed : condition.evaluate quantity = .error failure) :
      Skips quantity (.inConsequent position condition alternate)
  | alternateBehind {position : Int} {condition consequent : Formula} {failure : Failure}
      (failed : condition.evaluate quantity = .error failure) :
      Skips quantity (.inAlternate position condition consequent)

end Frame

/-- A part in its surroundings, the outermost frame first. -/
def plug : List Frame → Formula → Formula
  | [], part => part
  | frame :: rest, part => frame.fill (plug rest part)

end Formula

namespace AlikeIn

variable {View : Type} {view : Failure → View} {first second : Except Failure Int}

theorem refl (outcome : Except Failure Int) : AlikeIn view outcome outcome := rfl

theorem symm (alike : AlikeIn view first second) : AlikeIn view second first := Eq.symm alike

theorem ok {value : Int} (alike : AlikeIn view first second) (evaluated : first = .ok value) :
    second = .ok value := by
  subst evaluated
  cases second with
  | ok other => exact congrArg Except.ok (Except.ok.inj alike).symm
  | error failure => cases alike

theorem error {failure : Failure} (alike : AlikeIn view first second)
    (failed : first = .error failure) :
    ∃ other, second = .error other ∧ view failure = view other := by
  subst failed
  cases second with
  | ok value => cases alike
  | error other => exact ⟨other, rfl, Except.error.inj alike⟩

theorem bind {next other : Int → Except Failure Int} (alike : AlikeIn view first second)
    (continues : ∀ value, AlikeIn view (next value) (other value)) :
    AlikeIn view (first.bind next) (second.bind other) := by
  cases evaluated : first with
  | ok value =>
      rw [alike.ok evaluated]
      exact continues value
  | error failure =>
      obtain ⟨reason, failed, seen⟩ := alike.error evaluated
      rw [failed]
      exact congrArg Except.error seen

end AlikeIn

namespace Formula

variable {quantity : Int} {formula first second node other : Formula}

section Views

variable {View : Type} {view : Failure → View}

theorem checked_alike (seen : SeenAlike view node other) (value : Int) :
    AlikeIn view (checked node value) (checked other value) := by
  unfold checked
  split
  · exact .refl _
  · exact congrArg Except.error seen.overflow

theorem arithmetic_alike (seen : SeenAlike view node other) (operation : Arithmetic)
    (left right : Int) :
    AlikeIn view (arithmetic node operation left right)
      (arithmetic other operation left right) := by
  cases operation with
  | sum => exact checked_alike seen _
  | difference => exact checked_alike seen _
  | product => exact checked_alike seen _
  | quotient =>
      rw [arithmetic, arithmetic]
      split
      · exact congrArg Except.error seen.divisionByZero
      · exact checked_alike seen _
  | remainder =>
      rw [arithmetic, arithmetic]
      split
      · exact congrArg Except.error seen.moduloByZero
      · exact .refl _

theorem joined_alike (seen : SeenAlike view node other) (operator : BinaryOperator)
    (left right : Int) :
    AlikeIn view (joined node operator left right) (joined other operator left right) := by
  cases operator with
  | known operation =>
      cases operation with
      | logical connective => exact .refl _
      | relational relation => exact .refl _
      | numeric operation => exact arithmetic_alike seen operation left right
  | «unknown» symbol strange => exact .refl _

theorem unary_alike {position : Int} {operator : UnaryOperator}
    (seen : SeenAlike view (.unary position operator first) (.unary position operator second))
    (alike : AlikeIn view (first.evaluate quantity) (second.evaluate quantity)) :
    AlikeIn view ((unary position operator first).evaluate quantity)
      ((unary position operator second).evaluate quantity) := by
  cases operator with
  | negation => exact alike.bind fun value => .refl _
  | sign => exact alike.bind fun value => checked_alike seen _
  | «unknown» symbol strange => exact alike.bind fun value => checked_alike seen _

theorem binary_alike {position : Int} {operator : BinaryOperator} {left right : Formula}
    (seen : SeenAlike view (.binary position operator first left)
      (.binary position operator second right))
    (lefts : AlikeIn view (first.evaluate quantity) (second.evaluate quantity))
    (rights : AlikeIn view (left.evaluate quantity) (right.evaluate quantity)) :
    AlikeIn view ((binary position operator first left).evaluate quantity)
      ((binary position operator second right).evaluate quantity) := by
  rw [evaluate_joined, evaluate_joined]
  apply lefts.bind
  intro value
  split
  · exact .refl _
  · exact rights.bind fun _ => joined_alike seen operator _ _

theorem choice_alike (position : Int) {left right third fourth : Formula}
    (conditions : AlikeIn view (first.evaluate quantity) (second.evaluate quantity))
    (consequents : AlikeIn view (left.evaluate quantity) (right.evaluate quantity))
    (alternates : AlikeIn view (third.evaluate quantity) (fourth.evaluate quantity)) :
    AlikeIn view ((choice position first left third).evaluate quantity)
      ((choice position second right fourth).evaluate quantity) := by
  apply conditions.bind
  intro chosen
  split
  · exact consequents
  · exact alternates

theorem Frame.fill_alikeIn {frame : Frame}
    (seen : SeenAlike view (frame.fill first) (frame.fill second))
    (alike : AlikeIn view (first.evaluate quantity) (second.evaluate quantity)) :
    AlikeIn view ((frame.fill first).evaluate quantity)
      ((frame.fill second).evaluate quantity) := by
  cases frame with
  | inOperand position operator => exact unary_alike seen alike
  | inLeft position operator right => exact binary_alike seen alike (.refl _)
  | inRight position operator left => exact binary_alike seen (.refl _) alike
  | inCondition position consequent alternate =>
      exact choice_alike position alike (.refl _) (.refl _)
  | inConsequent position condition alternate =>
      exact choice_alike position (.refl _) alike (.refl _)
  | inAlternate position condition consequent =>
      exact choice_alike position (.refl _) (.refl _) alike

end Views

namespace Frame

theorem Skips.evaluate_eq {frame : Frame} (skips : frame.Skips quantity) (first second : Formula) :
    (frame.fill first).evaluate quantity = (frame.fill second).evaluate quantity := by
  cases skips with
  | conjunction zero =>
      exact (evaluate_of_settled zero rfl).trans (evaluate_of_settled zero rfl).symm
  | disjunction given nonzero =>
      have settles : (BinaryOperator.known (.logical .disjunction)).settled? _ = some 1 :=
        if_neg nonzero
      exact (evaluate_of_settled given settles).trans (evaluate_of_settled given settles).symm
  | consequent zero =>
      rw [fill, fill, evaluate_choice _ _ zero, evaluate_choice _ _ zero, if_neg (by simp),
        if_neg (by simp)]
  | alternate given nonzero =>
      rw [fill, fill, evaluate_choice _ _ given, evaluate_choice _ _ given, if_pos nonzero,
        if_pos nonzero]
  | behindLeft failed =>
      exact (evaluate_of_left_fails failed).trans (evaluate_of_left_fails failed).symm
  | consequentBehind failed => rw [fill, fill, evaluate, evaluate, failed]; rfl
  | alternateBehind failed => rw [fill, fill, evaluate, evaluate, failed]; rfl

end Frame

section

variable [Writing]

theorem Defect.written_iff_of_rendered {part : Formula} {failure : Failure}
    (defect : Defect quantity part failure) (rendered : part.Rendered) :
    failure.Written ↔
      (failure.mishap = .overflow → failure.symbol? = none → Text.Narrow quantity) := by
  cases defect with
  | quantity outside => exact ⟨fun short _ _ => short, fun short => short rfl rfl⟩
  | sign negates given outside => exact iff_of_true rendered fun _ => nofun
  | arithmetic checks leftValue rightValue exact outside =>
      exact iff_of_true rendered fun _ => nofun
  | quotient leftValue zero => exact iff_of_true rendered nofun
  | remainder leftValue zero => exact iff_of_true rendered nofun
  | operator leftValue rightValue => exact iff_of_true trivial nofun
  | foreign => exact absurd rendered.1 id

section Genuine

variable {failure : Failure} (genuine : formula.Genuine)
  (failed : formula.evaluate quantity = .error failure)

include genuine failed

theorem Genuine.written_iff (narrow : formula.Narrow) :
    failure.Written ↔
      (failure.mishap = .overflow → failure.symbol? = none → Text.Narrow quantity) := by
  obtain ⟨part, reached, defect⟩ := exists_defect failed
  exact defect.written_iff_of_rendered
    ⟨genuine.of_within reached.within, narrow.of_within reached.within⟩

end Genuine

end

attribute [local instance] Writing.standard

end Formula

end PluralRule
