import PluralRule.Proofs.Evaluation.Refinement
import PluralRule.Proofs.Parts

/-!
Where evaluation fails. A formula takes up some of its children, fails with the
first of them that fails, and can fail by itself only when all of them have
values. Main statements: a failure always comes from a part that is reached and
has a defect of its own, there is at most one such part, and what is reached
fails the whole formula with its own failure.
-/

namespace PluralRule

namespace Formula

/-- The children that evaluation takes up. A child behind one that fails is not
taken up, nor is a right operand that is not needed or a branch that is not taken. -/
def taken (quantity : Int) : Formula → List Formula
  | .unary _ _ operand => [operand]
  | .binary _ operator left right =>
      match left.evaluate quantity with
      | .ok first => if (operator.settled? first).isSome then [left] else [left, right]
      | .error _ => [left]
  | .choice _ condition consequent alternate =>
      match condition.evaluate quantity with
      | .ok chosen => [condition, if chosen ≠ 0 then consequent else alternate]
      | .error _ => [condition]
  | _ => []

def Reached (quantity : Int) (whole part : Formula) : Prop :=
  Relation.ReflTransGen (fun outer inner => inner ∈ outer.taken quantity) whole part

/-- The operands of a formula have values, and the formula fails nevertheless. -/
inductive Defect (quantity : Int) : Formula → Failure → Prop where
  | quantity {position : Int} (outside : ¬ Word.InRange quantity) :
      Defect quantity (.quantity position) (.quantity position quantity)
  | sign {position value : Int} {operator : UnaryOperator} {operand : Formula}
      (negates : operator ≠ .negation) (given : operand.evaluate quantity = .ok value)
      (outside : ¬ Word.InRange (-value)) :
      Defect quantity (.unary position operator operand)
        (.overflow (.unary position operator operand))
  | quotient {position first : Int} {left right : Formula}
      (leftValue : left.evaluate quantity = .ok first)
      (zero : right.evaluate quantity = .ok 0) :
      Defect quantity (.binary position (.known (.numeric .quotient)) left right)
        (.divisionByZero (.binary position (.known (.numeric .quotient)) left right))
  | remainder {position first : Int} {left right : Formula}
      (leftValue : left.evaluate quantity = .ok first)
      (zero : right.evaluate quantity = .ok 0) :
      Defect quantity (.binary position (.known (.numeric .remainder)) left right)
        (.moduloByZero (.binary position (.known (.numeric .remainder)) left right))
  | arithmetic {position first second value : Int} {operation : Arithmetic}
      {left right : Formula} (checks : operation ≠ .remainder)
      (leftValue : left.evaluate quantity = .ok first)
      (rightValue : right.evaluate quantity = .ok second)
      (exact : operation.exact first second = some value) (outside : ¬ Word.InRange value) :
      Defect quantity (.binary position (.known (.numeric operation)) left right)
        (.overflow (.binary position (.known (.numeric operation)) left right))
  | operator {position first second : Int} {symbol : String}
      {strange : Operation.ofSymbol? symbol = none} {left right : Formula}
      (leftValue : left.evaluate quantity = .ok first)
      (rightValue : right.evaluate quantity = .ok second) :
      Defect quantity (.binary position (.unknown symbol strange) left right)
        (.unknownOperator symbol)
  | foreign {leaf : Foreign} : Defect quantity (.foreign leaf) (.foreign leaf)

inductive Settles (quantity : Int) (formula : Formula) : Except Failure Int → Prop where
  | inner {child : Formula} {failure : Failure} (member : child ∈ formula.taken quantity)
      (failed : child.evaluate quantity = .error failure) :
      Settles quantity formula (.error failure)
  | value {value : Int}
      (sound : ∀ child ∈ formula.taken quantity, ∃ value, child.evaluate quantity = .ok value) :
      Settles quantity formula (.ok value)
  | defect {failure : Failure} (defect : Defect quantity formula failure) :
      Settles quantity formula (.error failure)

def joined (node : Formula) : BinaryOperator → Int → Int → Except Failure Int
  | .known operation, first, second => computed node operation first second
  | .unknown symbol _, _, _ => .error (.unknownOperator symbol)

theorem evaluate_joined (quantity position : Int) (operator : BinaryOperator)
    (left right : Formula) :
    evaluate quantity (.binary position operator left right) =
      (evaluate quantity left).bind fun first =>
        match operator.settled? first with
        | some value => .ok value
        | none => (evaluate quantity right).bind
            (joined (.binary position operator left right) operator first) := by
  cases operator with
  | known operation => exact evaluate_binary quantity position operation left right
  | «unknown» symbol strange => rfl

theorem evaluate_choice {quantity position chosen : Int} {condition : Formula}
    (consequent alternate : Formula) (outcome : condition.evaluate quantity = .ok chosen) :
    evaluate quantity (.choice position condition consequent alternate) =
      (if chosen ≠ 0 then consequent else alternate).evaluate quantity := by
  rw [evaluate, outcome]
  exact (apply_ite (evaluate quantity) _ _ _).symm

theorem checked_of_outside {value : Int} (node : Formula) (outside : ¬ Word.InRange value) :
    checked node value = .error (.overflow node) := if_neg outside

variable {quantity : Int} {formula whole part child : Formula} {failure : Failure}

section

variable {position first second : Int} {operator : BinaryOperator}
  {left right condition consequent alternate : Formula}

theorem taken_of_left_fails (fails : left.evaluate quantity = .error failure) :
    (binary position operator left right).taken quantity = [left] := by
  simp only [taken, fails]

theorem taken_of_settled {value : Int} (leftValue : left.evaluate quantity = .ok first)
    (settles : operator.settled? first = some value) :
    (binary position operator left right).taken quantity = [left] := by
  simp only [taken, leftValue, settles, Option.isSome_some, if_true]

theorem taken_of_unsettled (leftValue : left.evaluate quantity = .ok first)
    (unsettled : operator.settled? first = none) :
    (binary position operator left right).taken quantity = [left, right] := by
  simp only [taken, leftValue, unsettled, Option.isSome_none, Bool.false_eq_true, if_false]

theorem taken_of_condition_fails (fails : condition.evaluate quantity = .error failure) :
    (choice position condition consequent alternate).taken quantity = [condition] := by
  simp only [taken, fails]

theorem taken_of_condition (chosen : condition.evaluate quantity = .ok first) :
    (choice position condition consequent alternate).taken quantity =
      [condition, if first ≠ 0 then consequent else alternate] := by
  simp only [taken, chosen]

theorem evaluate_of_left_fails (fails : left.evaluate quantity = .error failure) :
    (binary position operator left right).evaluate quantity = .error failure := by
  rw [evaluate_joined, fails]
  rfl

theorem evaluate_of_settled {value : Int} (leftValue : left.evaluate quantity = .ok first)
    (settles : operator.settled? first = some value) :
    (binary position operator left right).evaluate quantity = .ok value := by
  rw [evaluate_joined, leftValue]
  simp only [Except.bind, settles]

theorem evaluate_of_right_fails (leftValue : left.evaluate quantity = .ok first)
    (unsettled : operator.settled? first = none)
    (fails : right.evaluate quantity = .error failure) :
    (binary position operator left right).evaluate quantity = .error failure := by
  rw [evaluate_joined, leftValue]
  simp only [Except.bind, unsettled, fails]

theorem evaluate_of_values (leftValue : left.evaluate quantity = .ok first)
    (unsettled : operator.settled? first = none)
    (rightValue : right.evaluate quantity = .ok second) :
    (binary position operator left right).evaluate quantity =
      joined (.binary position operator left right) operator first second := by
  rw [evaluate_joined, leftValue]
  simp only [Except.bind, unsettled, rightValue]

theorem mem_children_of_taken (member : child ∈ formula.taken quantity) :
    child ∈ formula.children := by
  cases formula with
  | unary position operator operand => exact member
  | binary position operator left right =>
      simp only [taken] at member
      split at member
      · split at member
        · exact List.mem_cons.mpr (Or.inl (List.mem_singleton.mp member))
        · exact member
      · exact List.mem_cons.mpr (Or.inl (List.mem_singleton.mp member))
  | choice position condition consequent alternate =>
      simp only [taken] at member
      split at member
      · split at member
        · exact List.mem_append_left [alternate] member
        · rcases List.mem_cons.mp member with rfl | last
          · exact List.mem_cons_self
          · exact List.mem_append_right [condition, consequent] last
      · exact List.mem_cons.mpr (Or.inl (List.mem_singleton.mp member))
  | literal position number => cases member
  | quantity position => cases member
  | foreign leaf => cases member

theorem taken_shape (quantity : Int) (formula : Formula) :
    formula.taken quantity = [] ∨ (∃ only, formula.taken quantity = [only]) ∨
      ∃ first second value, formula.taken quantity = [first, second] ∧
        first.evaluate quantity = .ok value := by
  cases formula with
  | unary position operator operand => exact Or.inr (Or.inl ⟨operand, rfl⟩)
  | binary position operator left right =>
      cases leftOutcome : left.evaluate quantity with
      | error failure => exact Or.inr (Or.inl ⟨left, taken_of_left_fails leftOutcome⟩)
      | ok first =>
          cases settles : operator.settled? first with
          | some value => exact Or.inr (Or.inl ⟨left, taken_of_settled leftOutcome settles⟩)
          | none =>
              exact Or.inr (Or.inr
                ⟨left, right, first, taken_of_unsettled leftOutcome settles, leftOutcome⟩)
  | choice position condition consequent alternate =>
      cases outcome : condition.evaluate quantity with
      | error failure => exact Or.inr (Or.inl ⟨condition, taken_of_condition_fails outcome⟩)
      | ok chosen => exact Or.inr (Or.inr ⟨_, _, chosen, taken_of_condition outcome, outcome⟩)
  | _ => exact Or.inl rfl

theorem arithmetic_of_exact {operation : Arithmetic} {value : Int} (node : Formula)
    (checks : operation ≠ .remainder) (exact : operation.exact first second = some value) :
    arithmetic node operation first second = checked node value := by
  cases operation with
  | remainder => exact absurd rfl checks
  | quotient =>
      by_cases zero : second = 0
      · rw [Arithmetic.exact, if_pos zero] at exact
        cases exact
      · rw [Arithmetic.exact, if_neg zero] at exact
        cases exact
        rw [arithmetic, if_neg zero, quotientTowardZero_eq_tdiv]
  | _ =>
      cases exact
      rfl

theorem checked_settles {node : Formula} {value : Int}
    (sound : ∀ child ∈ node.taken quantity, ∃ value, child.evaluate quantity = .ok value)
    (exceeds : ¬ Word.InRange value → Defect quantity node (.overflow node)) :
    Settles quantity node (checked node value) := by
  unfold checked
  split
  · exact .value sound
  · next outside => exact .defect (exceeds outside)

theorem arithmetic_settles {operation : Arithmetic} {node : Formula}
    (shape : node = .binary position (.known (.numeric operation)) left right)
    (sound : ∀ child ∈ node.taken quantity, ∃ value, child.evaluate quantity = .ok value)
    (leftValue : left.evaluate quantity = .ok first)
    (rightValue : right.evaluate quantity = .ok second) :
    Settles quantity node (arithmetic node operation first second) := by
  subst shape
  cases operation with
  | sum =>
      exact checked_settles sound (.arithmetic (by decide) leftValue rightValue rfl)
  | difference =>
      exact checked_settles sound (.arithmetic (by decide) leftValue rightValue rfl)
  | product =>
      exact checked_settles sound (.arithmetic (by decide) leftValue rightValue rfl)
  | quotient =>
      by_cases zero : second = 0
      · subst zero
        exact .defect (.quotient leftValue rightValue)
      · rw [arithmetic, if_neg zero, quotientTowardZero_eq_tdiv]
        exact checked_settles sound
          (.arithmetic (by decide) leftValue rightValue (if_neg zero))
  | remainder =>
      by_cases zero : second = 0
      · subst zero
        exact .defect (.remainder leftValue rightValue)
      · rw [arithmetic, if_neg zero]
        exact .value sound

theorem sound_of_values (leftValue : left.evaluate quantity = .ok first)
    (rightValue : right.evaluate quantity = .ok second)
    (unsettled : operator.settled? first = none) :
    ∀ child ∈ (binary position operator left right).taken quantity,
      ∃ value, child.evaluate quantity = .ok value := by
  rw [taken_of_unsettled leftValue unsettled]
  simp [leftValue, rightValue]

theorem joined_settles (leftValue : left.evaluate quantity = .ok first)
    (rightValue : right.evaluate quantity = .ok second)
    (unsettled : operator.settled? first = none) :
    Settles quantity (.binary position operator left right)
      (joined (.binary position operator left right) operator first second) := by
  have sound : ∀ child ∈ (binary position operator left right).taken quantity,
      ∃ value, child.evaluate quantity = .ok value :=
    sound_of_values leftValue rightValue unsettled
  cases operator with
  | known operation =>
      cases operation with
      | logical connective => exact .value sound
      | relational relation => exact .value sound
      | numeric operation => exact arithmetic_settles rfl sound leftValue rightValue
  | «unknown» symbol strange => exact .defect (.operator leftValue rightValue)

theorem binary_settles :
    Settles quantity (.binary position operator left right)
      ((binary position operator left right).evaluate quantity) := by
  cases leftOutcome : left.evaluate quantity with
  | error failure =>
      have member : left ∈ (binary position operator left right).taken quantity := by
        simp [taken_of_left_fails leftOutcome]
      rw [evaluate_of_left_fails leftOutcome]
      exact .inner member leftOutcome
  | ok first =>
      cases settles : operator.settled? first with
      | some value =>
          rw [evaluate_of_settled leftOutcome settles]
          apply Settles.value
          rw [taken_of_settled leftOutcome settles]
          exact List.forall_mem_singleton.mpr ⟨first, leftOutcome⟩
      | none =>
          cases rightOutcome : right.evaluate quantity with
          | error failure =>
              have member : right ∈ (binary position operator left right).taken quantity := by
                simp [taken_of_unsettled leftOutcome settles]
              rw [evaluate_of_right_fails leftOutcome settles rightOutcome]
              exact .inner member rightOutcome
          | ok second =>
              rw [evaluate_of_values leftOutcome settles rightOutcome]
              exact joined_settles leftOutcome rightOutcome settles

theorem choice_settles :
    Settles quantity (.choice position condition consequent alternate)
      ((choice position condition consequent alternate).evaluate quantity) := by
  cases outcome : condition.evaluate quantity with
  | error failure =>
      have member : condition ∈
          (choice position condition consequent alternate).taken quantity := by
        simp [taken_of_condition_fails outcome]
      rw [evaluate, outcome]
      exact .inner member outcome
  | ok chosen =>
      rw [evaluate_choice consequent alternate outcome]
      cases branch : (if chosen ≠ 0 then consequent else alternate).evaluate quantity with
      | error failure =>
          have member : (if chosen ≠ 0 then consequent else alternate) ∈
              (choice position condition consequent alternate).taken quantity := by
            simp [taken_of_condition outcome]
          exact .inner member branch
      | ok value =>
          apply Settles.value
          rw [taken_of_condition outcome]
          exact List.forall_mem_cons.mpr
            ⟨⟨chosen, outcome⟩, List.forall_mem_singleton.mpr ⟨value, branch⟩⟩

theorem evaluate_settles (quantity : Int) (formula : Formula) :
    Settles quantity formula (formula.evaluate quantity) := by
  cases formula with
  | literal position number => exact .value (by simp [taken])
  | quantity position =>
      rw [evaluate]
      split
      · exact .value (by simp [taken])
      · next outside => exact .defect (.quantity outside)
  | unary position operator operand =>
      rw [evaluate]
      cases given : operand.evaluate quantity with
      | error failure => exact .inner (List.mem_singleton_self operand) given
      | ok value =>
          have sound : ∀ child ∈ (unary position operator operand).taken quantity,
              ∃ value, child.evaluate quantity = .ok value := by
            simp [taken, given]
          cases operator with
          | negation => exact .value sound
          | sign => exact checked_settles sound (.sign (by decide) given)
          | «unknown» symbol strange => exact checked_settles sound (.sign (by simp) given)
  | binary position operator left right => exact binary_settles
  | choice position condition consequent alternate => exact choice_settles
  | foreign leaf => exact .defect .foreign

end

theorem Defect.evaluate_eq (defect : Defect quantity part failure) :
    part.evaluate quantity = .error failure := by
  cases defect with
  | quantity outside => rw [evaluate, if_neg outside]
  | @sign position value operator operand negates given outside =>
      rw [evaluate, given]
      cases operator with
      | negation => exact absurd rfl negates
      | sign => exact if_neg outside
      | «unknown» symbol strange => exact if_neg outside
  | quotient leftValue zero => exact evaluate_of_values leftValue rfl zero
  | remainder leftValue zero => exact evaluate_of_values leftValue rfl zero
  | @arithmetic position first second value operation left right checks leftValue rightValue exact
      outside =>
      rw [evaluate_of_values leftValue rfl rightValue]
      exact (arithmetic_of_exact _ checks exact).trans (checked_of_outside _ outside)
  | operator leftValue rightValue => exact evaluate_of_values leftValue rfl rightValue
  | foreign => rfl

theorem Defect.sound (defect : Defect quantity part failure) :
    ∀ child ∈ part.taken quantity, ∃ value, child.evaluate quantity = .ok value := by
  cases defect with
  | quantity outside => simp [taken]
  | sign negates given outside => simp [taken, given]
  | quotient leftValue zero => exact sound_of_values leftValue zero rfl
  | remainder leftValue zero => exact sound_of_values leftValue zero rfl
  | arithmetic checks leftValue rightValue exact outside =>
      exact sound_of_values leftValue rightValue rfl
  | operator leftValue rightValue => exact sound_of_values leftValue rightValue rfl
  | foreign => simp [taken]

theorem eq_of_taken_fails {other : Formula} {reason : Failure}
    (member : child ∈ formula.taken quantity) (failed : child.evaluate quantity = .error failure)
    (also : other ∈ formula.taken quantity) (fails : other.evaluate quantity = .error reason) :
    child = other := by
  rcases taken_shape quantity formula with
    empty | ⟨only, single⟩ | ⟨first, second, value, pair, settled⟩
  · rw [empty] at member
    cases member
  · rw [single] at member also
    rw [List.mem_singleton.mp member, List.mem_singleton.mp also]
  · have last (one : Formula) (reason : Failure) (within : one ∈ [first, second])
        (fails : one.evaluate quantity = .error reason) : one = second := by
      rcases List.mem_cons.mp within with rfl | tail
      · rw [settled] at fails
        cases fails
      · exact List.mem_singleton.mp tail
    rw [pair] at member also
    exact (last child failure member failed).trans (last other reason also fails).symm

theorem evaluate_of_taken (member : child ∈ whole.taken quantity)
    (failed : child.evaluate quantity = .error failure) :
    whole.evaluate quantity = .error failure := by
  have unsound : ¬ ∀ child ∈ whole.taken quantity,
      ∃ value, child.evaluate quantity = .ok value := by
    intro sound
    obtain ⟨value, evaluated⟩ := sound child member
    rw [failed] at evaluated
    cases evaluated
  have outcome := evaluate_settles quantity whole
  cases result : whole.evaluate quantity with
  | ok value =>
      rw [result] at outcome
      cases outcome with
      | value sound => exact absurd sound unsound
  | error reason =>
      rw [result] at outcome
      cases outcome with
      | inner also fails =>
          obtain rfl := eq_of_taken_fails member failed also fails
          exact congrArg Except.error (Except.error.inj (fails.symm.trans failed))
      | defect defect => exact absurd defect.sound unsound

theorem Reached.evaluate_eq (reached : Reached quantity whole part)
    (failed : part.evaluate quantity = .error failure) :
    whole.evaluate quantity = .error failure := by
  induction reached using Relation.ReflTransGen.head_induction_on with
  | refl => exact failed
  | head member inner ih => exact evaluate_of_taken member ih

theorem Reached.within (reached : Reached quantity whole part) : part.Within whole :=
  Relation.ReflTransGen.mono (fun _ _ => mem_children_of_taken) _ _ reached

theorem exists_defect (failed : formula.evaluate quantity = .error failure) :
    ∃ part, Reached quantity formula part ∧ Defect quantity part failure := by
  induction formula using induction_on_children with
  | node formula ih =>
      have outcome := evaluate_settles quantity formula
      rw [failed] at outcome
      cases outcome with
      | inner member inner =>
          obtain ⟨part, reached, defect⟩ := ih _ (mem_children_of_taken member) inner
          exact ⟨part, .head member reached, defect⟩
      | defect defect => exact ⟨formula, .refl, defect⟩

end Formula

end PluralRule
