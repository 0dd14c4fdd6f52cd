import Mathlib.Data.List.Forall2
import PluralRule.Proofs.Reading.Acceptance

/-!
Readings that agree. Two lists of tokens with the same kinds and the same
literals lead two readings side by side: what waits, what is open and what has
been read is the same but for places. Main statements: one step keeps readings
the same or stops both of them in one way, and two runs come to the same formula
or to faults of one kind at tokens of one index.
-/

namespace PluralRule

open Formula (literalValue?)

/-- The tokens can stand for each other: they have one kind, and as numbers one literal. -/
structure Token.Interchangeable (left right : Token) : Prop where
  kind : left.kind = right.kind
  literal : left.kind = .number → literalValue? left.text = literalValue? right.text

inductive Waiting.Same : Waiting → Waiting → Prop where
  | negation {first second : Int} : Same (.negation first) (.negation second)
  | sign {first second : Int} : Same (.sign first) (.sign second)
  | binary {first second : Int} {operation : Operation} {left right : Formula}
      (same : left.Identical right) :
      Same (.binary first operation left) (.binary second operation right)

inductive Context.Same : Context → Context → Prop where
  | outermost : Same .outermost .outermost
  | group {first second : Int} {left right : List Waiting} {around about : Context}
      (waiting : List.Forall₂ Waiting.Same left right) (outer : Same around about) :
      Same (.group first left around) (.group second right about)
  | beforeColon {first second : Int} {left right : Formula} {around about : Context}
      (condition : left.Identical right) (outer : Same around about) :
      Same (.beforeColon first left around) (.beforeColon second right about)
  | afterColon {first second : Int} {left right taken chosen : Formula} {around about : Context}
      (condition : left.Identical right) (consequent : taken.Identical chosen)
      (outer : Same around about) :
      Same (.afterColon first left taken around) (.afterColon second right chosen about)

inductive Reading.Same : Reading → Reading → Prop where
  | beginning {left right : Context} (context : left.Same right) :
      Same (.beginning left) (.beginning right)
  | operand {first second : Int} {left right : Context} {before behind : List Waiting}
      (context : left.Same right) (waiting : List.Forall₂ Waiting.Same before behind) :
      Same (.operand left first before) (.operand right second behind)
  | operator {first second : Int} {left right : Context} {before behind : List Waiting}
      {value other : Formula} (context : left.Same right)
      (waiting : List.Forall₂ Waiting.Same before behind) (same : value.Identical other) :
      Same (.operator left first before value) (.operator right second behind other)

namespace Waiting

variable {first second : Waiting} {left right : List Waiting} {value other : Formula}

theorem Same.strength_eq (same : first.Same second) : first.strength = second.strength := by
  cases same <;> rfl

theorem Same.nesting_eq (same : first.Same second) : first.nesting = second.nesting := by
  cases same <;> rfl

theorem Same.apply (same : first.Same second) (values : value.Identical other) :
    (first.apply value).Identical (second.apply other) := by
  cases same with
  | negation => exact values.unary _ _ .negation
  | sign => exact values.unary _ _ .sign
  | binary left => exact left.binary values _ _ _

theorem settle_same (strength : Nat) (waiting : List.Forall₂ Same left right)
    (values : value.Identical other) :
    List.Forall₂ Same (settle strength left value).1 (settle strength right other).1 ∧
      (settle strength left value).2.Identical (settle strength right other).2 := by
  induction waiting generalizing value other with
  | nil => exact ⟨.nil, values⟩
  | @cons first second before behind same rest ih =>
      simp only [settle, ← same.strength_eq]
      split
      · exact ih (same.apply values)
      · exact ⟨.cons same rest, values⟩

theorem settleAll_same (waiting : List.Forall₂ Same left right) (values : value.Identical other) :
    (settleAll left value).Identical (settleAll right other) :=
  (settle_same 0 waiting values).2

theorem admitsNegation_eq (waiting : List.Forall₂ Same left right) :
    admitsNegation left = admitsNegation right := by
  cases waiting with
  | nil => rfl
  | cons same rest => simp only [admitsNegation, same.strength_eq]

theorem nestingOf_eq (waiting : List.Forall₂ Same left right) :
    nestingOf left = nestingOf right := by
  induction waiting with
  | nil => rfl
  | cons same rest ih => simp only [nestingOf, same.nesting_eq, ih]

end Waiting

namespace Context

variable {left right : Context} {value other : Formula}

theorem Same.nesting_eq (same : left.Same right) : left.nesting = right.nesting := by
  induction same with
  | outermost => rfl
  | group waiting outer ih => simp only [nesting, ih, Waiting.nestingOf_eq waiting]
  | beforeColon condition outer ih => simp only [nesting, ih]
  | afterColon condition consequent outer ih => simp only [nesting, ih]

theorem Same.awaits_eq (same : left.Same right) : left.awaits = right.awaits := by
  induction same with
  | afterColon condition consequent outer ih => exact ih
  | _ => rfl

theorem Same.close (same : left.Same right) (values : value.Identical other) :
    (left.close value).1.Same (right.close other).1 ∧
      (left.close value).2.Identical (right.close other).2 := by
  induction same generalizing value other with
  | outermost => exact ⟨.outermost, values⟩
  | group waiting outer ih => exact ⟨.group waiting outer, values⟩
  | beforeColon condition outer ih => exact ⟨.beforeColon condition outer, values⟩
  | afterColon condition consequent outer ih => exact ih (condition.choice consequent values _ _)

end Context

inductive Step.Agrees (left right : Token) : Step → Step → Prop where
  | next {first second : Reading} (same : first.Same second) :
      Agrees left right (.next first) (.next second)
  | accept {first second : Formula} (same : first.Identical second) :
      Agrees left right (.accept first) (.accept second)
  | blame : Agrees left right .blame .blame
  | literal : Agrees left right (.fail (.literal left)) (.fail (.literal right))
  | limit (breach : Breach) (measured : breach.bound ≠ .length) :
      Agrees left right (.fail (.limit breach)) (.fail (.limit breach))

namespace Reading

variable {limits : Limits} {left right : Token} {first second : Reading}

theorem Same.nesting_eq (same : first.Same second) : first.nesting = second.nesting := by
  cases same with
  | beginning context => exact context.nesting_eq
  | operand context waiting =>
      simp only [nesting, context.nesting_eq, Waiting.nestingOf_eq waiting]
  | operator context waiting same =>
      simp only [nesting, context.nesting_eq, Waiting.nestingOf_eq waiting]

theorem Same.expected_eq (same : first.Same second) : first.expected = second.expected := by
  cases same with
  | beginning context => rfl
  | operand context waiting => rfl
  | operator context waiting same => exact context.awaits_eq

theorem deeper_agrees (limits : Limits) (left right : Token) (same : first.Same second) :
    Step.Agrees left right (deeper limits first) (deeper limits second) := by
  by_cases within : (first.nesting : Int) ≤ limits.maxDepth
  · rw [deeper_of_le within, deeper_of_le (same.nesting_eq ▸ within)]
    exact .next same
  · have exceeds : limits.maxDepth < (first.nesting : Int) := Int.not_le.mp within
    rw [deeper_of_lt exceeds, deeper_of_lt (same.nesting_eq ▸ exceeds), same.nesting_eq]
    exact .limit _ (by simp)

theorem takeOperand_agrees (limits : Limits) (alike : left.Interchangeable right)
    {context around : Context} {waiting behind : List Waiting} (start begun : Int)
    (contexts : context.Same around) (same : List.Forall₂ Waiting.Same waiting behind) :
    Step.Agrees left right (takeOperand limits context start waiting left)
      (takeOperand limits around begun behind right) := by
  have literal := alike.literal
  simp only [takeOperand, ← alike.kind, ← Waiting.admitsNegation_eq same]
  cases kind : left.kind with
  | number =>
      simp only [← literal kind]
      cases literalValue? left.text with
      | some value => exact .next (.operator contexts same rfl)
      | none => exact .literal
  | quantity => exact .next (.operator contexts same rfl)
  | opening => exact deeper_agrees limits left right (.beginning (.group same contexts))
  | minus => exact deeper_agrees limits left right (.operand contexts (.cons .sign same))
  | not =>
      dsimp only
      split
      · exact deeper_agrees limits left right (.operand contexts (.cons .negation same))
      · exact .blame
  | _ => exact .blame

theorem takeEnd_agrees (limits : Limits) (left right : Token) (kind : Token.Kind)
    {context around : Context} {value other : Formula} (contexts : context.Same around)
    (values : value.Identical other) :
    Step.Agrees left right (takeEnd limits context value kind)
      (takeEnd limits around other kind) := by
  obtain ⟨opened, closed⟩ := contexts.close values
  unfold takeEnd
  generalize context.close value = first at opened closed
  generalize around.close other = second at opened closed
  obtain ⟨inner, whole⟩ := first
  obtain ⟨within, all⟩ := second
  dsimp only at opened closed
  cases opened with
  | outermost =>
      cases kind with
      | finish => exact .accept closed
      | _ => exact .blame
  | group waiting outer =>
      cases kind with
      | closing => exact .next (.operator outer waiting closed)
      | _ => exact .blame
  | beforeColon condition outer =>
      cases kind with
      | colon =>
          exact deeper_agrees limits left right (.beginning (.afterColon condition closed outer))
      | _ => exact .blame
  | afterColon condition consequent outer => exact .blame

theorem takeOperator_agrees (limits : Limits) (alike : left.Interchangeable right)
    {context around : Context} {waiting behind : List Waiting} {value other : Formula}
    (start begun : Int) (contexts : context.Same around)
    (same : List.Forall₂ Waiting.Same waiting behind) (values : value.Identical other) :
    Step.Agrees left right (takeOperator limits context start waiting value left)
      (takeOperator limits around begun behind other right) := by
  have wholes := Waiting.settleAll_same same values
  simp only [takeOperator, ← alike.kind]
  cases left.kind.operation? with
  | some operation =>
      obtain ⟨kept, settled⟩ := Waiting.settle_same operation.strength same values
      exact .next (.operand contexts (.cons (.binary settled) kept))
  | none =>
      dsimp only
      split
      · exact deeper_agrees limits left right (.beginning (.beforeColon wholes contexts))
      · exact takeEnd_agrees limits left right left.kind contexts wholes

theorem step_agrees (limits : Limits) (alike : left.Interchangeable right)
    (same : first.Same second) :
    Step.Agrees left right (first.step limits left) (second.step limits right) := by
  cases same with
  | beginning context => exact takeOperand_agrees limits alike _ _ context .nil
  | operand context waiting => exact takeOperand_agrees limits alike _ _ context waiting
  | operator context waiting values =>
      exact takeOperator_agrees limits alike _ _ context waiting values

end Reading

/-- Outcomes of reading two lists that agree: formulas that are the same, faults
at tokens of one index with one expectation, or one breach of a limit. -/
inductive Agree (left right : List Token) :
    Except Fault Formula → Except Fault Formula → Prop where
  | formula {first second : Formula} (same : first.Identical second) :
      Agree left right (.ok first) (.ok second)
  | unexpected (expected : Expectation) {first second : Token} (index : Nat)
      (here : left[index]? = some first) (there : right[index]? = some second) :
      Agree left right (.error (.unexpected expected first)) (.error (.unexpected expected second))
  | literal {first second : Token} (index : Nat)
      (here : left[index]? = some first) (there : right[index]? = some second) :
      Agree left right (.error (.literal first)) (.error (.literal second))
  | limit (breach : Breach) (measured : breach.bound ≠ .length) :
      Agree left right (.error (.limit breach)) (.error (.limit breach))

section Agree

variable {limits : Limits} {left right : List Token} {first second : Except Fault Formula}

theorem Agree.cons (token other : Token) (agree : Agree left right first second) :
    Agree (token :: left) (other :: right) first second := by
  cases agree with
  | formula same => exact .formula same
  | unexpected expected index here there => exact .unexpected expected (index + 1) here there
  | literal index here there => exact .literal (index + 1) here there
  | limit breach measured => exact .limit breach measured

theorem Reading.run_agrees (limits : Limits) (ended : ∃ token ∈ left, token.kind = .finish)
    (alike : List.Forall₂ Token.Interchangeable left right) {reading following : Reading}
    (same : reading.Same following) :
    Agree left right (reading.run limits left).1 (following.run limits right).1 := by
  induction alike generalizing reading following with
  | nil =>
      obtain ⟨token, member, -⟩ := ended
      cases member
  | @cons token other before behind alike rest ih =>
      have expected := same.expected_eq
      have agrees := step_agrees limits alike same
      simp only [run, ← expected]
      generalize stepped : reading.step limits token = step at agrees
      generalize following.step limits other = further at agrees
      cases agrees with
      | next same =>
          -- The end is never taken, so it is among the tokens that are left.
          refine .cons token other (ih ?_ same)
          obtain ⟨last, member, finishes⟩ := ended
          rcases List.mem_cons.mp member with rfl | later
          · exact absurd finishes (kind_ne_finish_of_step stepped)
          · exact ⟨last, later, finishes⟩
      | accept same => exact .formula same
      | blame => exact .unexpected _ 0 rfl rfl
      | literal => exact .literal 0 rfl rfl
      | limit breach measured => exact .limit breach measured

theorem Formula.measured_agrees (limits : Limits) {formula other : Formula}
    (same : formula.Identical other) : Agree left right (measured limits formula)
      (measured limits other) := by
  rw [measured_eq, measured_eq, same.same.nodeCount_eq, same.same.treeDepth_eq]
  split
  · exact .limit _ (by simp)
  · split
    · exact .limit _ (by simp)
    · exact .formula same

theorem Formula.ofTokens_agrees (limits : Limits) (ended : ∃ token ∈ left, token.kind = .finish)
    (alike : List.Forall₂ Token.Interchangeable left right) :
    Agree left right (ofTokens limits left) (ofTokens limits right) := by
  have agree : Agree left right (Reading.initial.run limits left).1
      (Reading.initial.run limits right).1 :=
    Reading.run_agrees limits ended alike (.beginning .outermost)
  rw [ofTokens_eq_bind, ofTokens_eq_bind]
  generalize (Reading.initial.run limits left).1 = first at agree
  generalize (Reading.initial.run limits right).1 = second at agree
  cases agree with
  | formula same => exact measured_agrees limits same
  | unexpected expected index here there => exact .unexpected expected index here there
  | literal index here there => exact .literal index here there
  | limit breach measured => exact .limit breach measured

end Agree

end PluralRule
