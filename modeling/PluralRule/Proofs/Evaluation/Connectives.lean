import PluralRule.Proofs.Evaluation.Answers
import PluralRule.Proofs.Evaluation.Compositional

/-!
Laws of the connectives. Negations of conjunctions and disjunctions, both connectives
as choices, and choices between swapped branches have one outcome, failures included,
whatever their operands are. Main statement: the two sides of a law are answered
alike, and in all surroundings the whole has one value or fails in one way.
-/

namespace PluralRule

def Failure.kind? [Writing] (failure : Failure) : Option String :=
  failure.account.toOption.map fun told => told.2.kind

/-- What an answer comes to, texts apart: a value, a kind of failure, or an escape. -/
inductive Verdict where
  | value (value : Int)
  | failure (kind : String)
  | escape
  deriving DecidableEq, Repr

def verdict : Except Unwritable Answer → Verdict
  | .ok (.value value) => .value value
  | .ok (.failure _ kind) => .failure kind
  | .error _ => .escape

namespace Formula

def negated (position : Int) (operand : Formula) : Formula := .unary position .negation operand

def both (position : Int) (left right : Formula) : Formula :=
  .binary position (.known (.logical .conjunction)) left right

def either (position : Int) (left right : Formula) : Formula :=
  .binary position (.known (.logical .disjunction)) left right

/-- Two ways to write one thing, whatever the operands are and wherever the nodes stand. -/
inductive Law : Formula → Formula → Prop where
  | negatedBoth (p q r s t : Int) (a b : Formula) :
      Law (negated p (both q a b)) (either r (negated s a) (negated t b))
  | negatedEither (p q r s t : Int) (a b : Formula) :
      Law (negated p (either q a b)) (both r (negated s a) (negated t b))
  | bothAsChoice (p q r s t : Int) (a b : Formula) :
      Law (both p a b) (.choice q a (negated r (negated s b)) (.literal t (.int 0)))
  | eitherAsChoice (p q r s t : Int) (a b : Formula) :
      Law (either p a b) (.choice q a (.literal r (.int 1)) (negated s (negated t b)))
  | negatedCondition (p q r : Int) (a b c : Formula) :
      Law (.choice p (negated q a) b c) (.choice r a c b)

variable {quantity : Int} {first second formula : Formula}

theorem evaluate_negated (position : Int) (operand : Formula) :
    (negated position operand).evaluate quantity =
      (operand.evaluate quantity).bind fun value => .ok (truth (value = 0)) := rfl

theorem evaluate_both (position : Int) (left right : Formula) :
    (both position left right).evaluate quantity =
      (left.evaluate quantity).bind fun first =>
        if first = 0 then .ok 0
        else (right.evaluate quantity).bind fun second => .ok (truth (second ≠ 0)) := rfl

theorem evaluate_either (position : Int) (left right : Formula) :
    (either position left right).evaluate quantity =
      (left.evaluate quantity).bind fun first =>
        if first ≠ 0 then .ok 1
        else (right.evaluate quantity).bind fun second => .ok (truth (second ≠ 0)) := rfl

theorem evaluate_chosen (position : Int) (condition consequent alternate : Formula) :
    (choice position condition consequent alternate).evaluate quantity =
      (condition.evaluate quantity).bind fun chosen =>
        if chosen ≠ 0 then consequent.evaluate quantity else alternate.evaluate quantity := rfl

theorem Law.evaluate_eq (law : Law first second) (quantity : Int) :
    first.evaluate quantity = second.evaluate quantity := by
  -- The second operand is looked at only where the first one leaves the result open.
  cases law with
  | negatedBoth p q r s t a b =>
      rw [evaluate_negated, evaluate_both, evaluate_either, evaluate_negated, evaluate_negated]
      cases a.evaluate quantity with
      | error failure => rfl
      | ok first =>
          by_cases zero : first = 0
          · simp [Except.bind, zero, truth]
          · cases b.evaluate quantity <;> simp [Except.bind, zero, truth]
  | negatedEither p q r s t a b =>
      rw [evaluate_negated, evaluate_either, evaluate_both, evaluate_negated, evaluate_negated]
      cases a.evaluate quantity with
      | error failure => rfl
      | ok first =>
          by_cases zero : first = 0
          · cases b.evaluate quantity <;> simp [Except.bind, zero, truth]
          · simp [Except.bind, zero, truth]
  | bothAsChoice p q r s t a b =>
      rw [evaluate_both, evaluate_chosen, evaluate_negated, evaluate_negated]
      cases a.evaluate quantity with
      | error failure => rfl
      | ok first =>
          by_cases zero : first = 0
          · simp [Except.bind, zero, evaluate, Number.value]
          · cases b.evaluate quantity <;> simp [Except.bind, zero, truth]
  | eitherAsChoice p q r s t a b =>
      rw [evaluate_either, evaluate_chosen, evaluate_negated, evaluate_negated]
      cases a.evaluate quantity with
      | error failure => rfl
      | ok first =>
          by_cases zero : first = 0
          · cases b.evaluate quantity <;> simp [Except.bind, zero, truth]
          · simp [Except.bind, zero, evaluate, Number.value]
  | negatedCondition p q r a b c =>
      rw [evaluate_chosen, evaluate_chosen, evaluate_negated]
      cases a.evaluate quantity with
      | error failure => rfl
      | ok chosen => by_cases zero : chosen = 0 <;> simp [Except.bind, zero, truth]

theorem Law.genuine_iff (law : Law first second) : first.Genuine ↔ second.Genuine := by
  cases law <;> simp [both, either, negated, Genuine, and_comm]

section

variable [Writing]

theorem Law.narrow_iff (law : Law first second) : first.Narrow ↔ second.Narrow := by
  have zero : Text.Narrow 0 := Word.narrow (by decide)
  have one : Text.Narrow 1 := Word.narrow (by decide)
  cases law <;> simp [both, either, negated, Narrow, Number.value, zero, one, and_comm]

/-- The sides of a law are written together: they hold the same leaves, and else only
literals of one digit. -/
theorem Law.rendered_iff (law : Law first second) : first.Rendered ↔ second.Rendered :=
  and_congr law.genuine_iff law.narrow_iff

theorem answer_congr (same : first.evaluate quantity = second.evaluate quantity)
    (source other : Option String) :
    first.answer source quantity = second.answer other quantity := by
  cases outcome : first.evaluate quantity with
  | ok value =>
      rw [answer_of_ok source outcome, answer_of_ok other (same ▸ outcome)]
  | error failure =>
      cases told : failure.account with
      | error leaf =>
          rw [answer_of_untold source outcome told, answer_of_untold other (same ▸ outcome) told]
      | ok account =>
          rw [answer_of_told source outcome told, answer_of_told other (same ▸ outcome) told]

def verdictOf : Except (Option String) Int → Verdict
  | .ok value => .value value
  | .error (some kind) => .failure kind
  | .error none => .escape

theorem verdict_answer (source : Option String) (quantity : Int) (formula : Formula) :
    verdict (formula.answer source quantity) =
      verdictOf ((formula.evaluate quantity).mapError Failure.kind?) := by
  cases outcome : formula.evaluate quantity with
  | ok value =>
      rw [answer_of_ok source outcome]
      rfl
  | error failure =>
      cases told : failure.account with
      | error leaf =>
          have kind : failure.kind? = none := by rw [Failure.kind?, told]; rfl
          rw [answer_of_untold source outcome told]
          exact congrArg (fun kind => verdictOf (.error kind)) kind.symm
      | ok account =>
          have kind : failure.kind? = some failure.mishap.kind := by
            rw [Failure.kind?, told, ← Failure.kind_of_account told]
            rfl
          rw [answer_of_told source outcome told]
          exact congrArg (fun kind => verdictOf (.error kind)) kind.symm

theorem seenAlike_kind? (alike : first.Rendered ↔ second.Rendered) :
    SeenAlike Failure.kind? first second := by
  have kinds (mishap : Mishap) (wording : String) :
      ((Failure.nodeAccount mishap wording first).toOption.map fun told => told.2.kind) =
        (Failure.nodeAccount mishap wording second).toOption.map fun told => told.2.kind := by
    rw [← render_ok_iff, ← render_ok_iff] at alike
    cases rendered : first.render with
    | ok text =>
        obtain ⟨other, again⟩ := alike.mp ⟨text, rendered⟩
        rw [Failure.nodeAccount_of_render _ _ rendered, Failure.nodeAccount_of_render _ _ again]
        rfl
    | error reason =>
        cases again : second.render with
        | ok other =>
            obtain ⟨text, written⟩ := alike.mpr ⟨other, again⟩
            rw [rendered] at written
            cases written
        | error other =>
            rw [Failure.nodeAccount_of_stuck _ _ rendered, Failure.nodeAccount_of_stuck _ _ again]
            rfl
  exact ⟨kinds _ _, kinds _ _, kinds _ _⟩

theorem rendered_fill_iff (frame : Frame) :
    (frame.fill formula).Rendered ↔
      formula.Rendered ∧ ∀ other ∈ frame.others, other.Rendered := by
  cases frame <;> simp [Frame.fill, Frame.others, Rendered, Genuine, Narrow] <;> tauto

theorem rendered_plug_iff (frames : List Frame) (alike : first.Rendered ↔ second.Rendered) :
    (plug frames first).Rendered ↔ (plug frames second).Rendered := by
  induction frames with
  | nil => exact alike
  | cons frame rest ih => rw [plug, plug, rendered_fill_iff, rendered_fill_iff, ih]

theorem verdict_plug (frames : List Frame) (alike : first.Rendered ↔ second.Rendered)
    (same : first.evaluate quantity = second.evaluate quantity) (source other : Option String) :
    verdict ((plug frames first).answer source quantity) =
      verdict ((plug frames second).answer other quantity) := by
  have outcomes : AlikeIn Failure.kind? ((plug frames first).evaluate quantity)
      ((plug frames second).evaluate quantity) := by
    -- Failing nodes around the part differ, but have texts together, which is all a kind needs.
    induction frames with
    | nil => exact congrArg (Except.mapError Failure.kind?) same
    | cons frame rest ih =>
        exact Frame.fill_alikeIn
          (seenAlike_kind? (rendered_plug_iff (frame :: rest) alike)) ih
  rw [verdict_answer, verdict_answer]
  exact congrArg verdictOf outcomes

/-- The sides of a law are answered alike, failures and escapes included, and in all
surroundings the whole has one value, or fails in one way, or escapes. -/
theorem law_answers (law : Law first second) (quantity : Int) (source other : Option String) :
    first.answer source quantity = second.answer other quantity ∧
      ∀ frames : List Frame,
        verdict ((plug frames first).answer source quantity) =
          verdict ((plug frames second).answer other quantity) :=
  ⟨answer_congr (law.evaluate_eq quantity) source other,
    fun frames => verdict_plug frames law.rendered_iff (law.evaluate_eq quantity) source other⟩

end

attribute [local instance] Writing.standard

/-- At zero a divisor that passes over a foreign leaf lets the quotient escape, written
as a conjunction or as a choice; at one both come to the leaf and say so. -/
theorem law_answers_skippedLeaf :
    ∃ first second : Formula, Law first second ∧
      plug [.inRight 1 (.known (.numeric .quotient)) (.literal 0 (.int 1))] first = skippedLeaf ∧
      verdict (skippedLeaf.answer none 0) = .escape ∧
      verdict ((plug [.inRight 1 (.known (.numeric .quotient)) (.literal 0 (.int 1))] second).answer
        (some "1 / (n and leaf)") 0) = .escape ∧
      second.answer none 1 = .ok (.failure "Unknown AST node: 'leaf'" "evaluation-error") := by
  have law : Law (both 3 (.quantity 2) (.foreign strayText))
      (.choice 2 (.quantity 2) (negated 4 (negated 5 (.foreign strayText)))
        (.literal 6 (.int 0))) :=
    .bothAsChoice 3 2 4 5 6 _ _
  have escapes : verdict (skippedLeaf.answer none 0) = .escape := by rfl
  have told : (both 3 (.quantity 2) (.foreign strayText)).answer none 1 =
      .ok (.failure "Unknown AST node: 'leaf'" "evaluation-error") := by rfl
  have around := (law_answers law 0 none (some "1 / (n and leaf)")).2
    [.inRight 1 (.known (.numeric .quotient)) (.literal 0 (.int 1))]
  exact ⟨_, _, law, rfl, escapes, around.symm.trans escapes,
    (law_answers law 1 none none).1.symm.trans told⟩

end Formula

end PluralRule
