import PluralRule.Formula.Outline
import PluralRule.Proofs.Evaluation.Connectives
import PluralRule.Proofs.Rendering.Unique
import PluralRule.Proofs.Selecting

/-!
Formulas that differ in places alone, and formulas that are equal. Whatever is
answered, shown or measured of a formula does not look at places, and reports
differ in the place and in the source that they show at most. Equality goes
further: a truth value equals its integer and foreign leaves with different texts
can be equal, so equal formulas are only told apart by texts. Main statement: what
stays the same in either case, for formulas and for selectors, and that known
formulas that are rendered alike differ in places alone.
-/

namespace PluralRule

/-- What a report tells besides the place and the source that it shows. -/
def Report.withoutPlace (report : Report) : Report :=
  { report with position := none, expression := none }

/-- What a failure tells apart from places and texts: its kind and the operator. -/
def Failure.label (failure : Failure) : Mishap × Option String :=
  (failure.mishap, failure.symbol?)

def Verdict.index (count : Int) : Verdict → Option (Option Int)
  | .value index => some (if 0 ≤ index ∧ index < count then some index else none)
  | .failure _ => some none
  | .escape => none

def Number.Plain (number : Number) : Prop := ∃ value, number = .int value

namespace Formula

/-- Every foreign leaf has the text that messages quote. -/
def Quotable (formula : Formula) : Prop :=
  ∀ leaf, (foreign leaf).Within formula → leaf.quoted.isSome

variable {first second : Formula}

theorem Known.essence_eq {formula : Formula} (known : formula.Known Number.Plain) :
    formula.essence = formula.mapPosition fun _ => 0 := by
  induction formula with
  | literal position number =>
      obtain ⟨value, rfl⟩ := known
      rfl
  | quantity position => rfl
  | unary position operator operand ih => rw [essence, mapPosition, ih known.2]
  | binary position operator left right leftIh rightIh =>
      rw [essence, mapPosition, leftIh known.2.1, rightIh known.2.2]
  | choice position condition consequent alternate firstIh secondIh thirdIh =>
      rw [essence, mapPosition, firstIh known.1, secondIh known.2.1, thirdIh known.2.2]
  | foreign leaf => exact absurd known id

theorem Known.identical_iff_same (known : first.Known Number.Plain)
    (other : second.Known Number.Plain) : first.Identical second ↔ first.Same second := by
  rw [Identical, Same, known.essence_eq, other.essence_eq]
  rfl

theorem Same.alikeIn (same : first.Same second) (quantity : Int) :
    AlikeIn (Failure.relabel .essence) (first.evaluate quantity) (second.evaluate quantity) := by
  have equal : first.essence = second.essence := same
  rw [AlikeIn, ← evaluate_relabel, ← evaluate_relabel, relabel_essence, relabel_essence, equal]

theorem Same.evaluate_ok_iff (same : first.Same second) {quantity value : Int} :
    first.evaluate quantity = .ok value ↔ second.evaluate quantity = .ok value :=
  ⟨(same.alikeIn quantity).ok, (same.alikeIn quantity).symm.ok⟩

section

variable [Writing]

theorem answer_eq_map (source : Option String) (quantity : Int) (formula : Formula) :
    formula.answer source quantity =
      ((formula.evaluateReported source quantity).map (·.mapError Report.withoutPlace)).map
        fun outcome => match outcome with
          | .ok value => .value value
          | .error report => .failure report.message report.kind := by
  rw [answer]
  cases formula.evaluateReported source quantity with
  | error reason => rfl
  | ok outcome => cases outcome <;> rfl

theorem outline_mapPosition (formula : Formula) (move : Int → Int) (level : Int) :
    (formula.mapPosition move).outline level = formula.outline level := by
  induction formula generalizing level with
  | literal position number => rfl
  | quantity position => rfl
  | unary position operator operand ih => simp only [mapPosition, outline, ih]
  | binary position operator left right leftIh rightIh =>
      simp only [mapPosition, outline, leftIh, rightIh]
  | choice position condition consequent alternate firstIh secondIh thirdIh =>
      simp only [mapPosition, outline, firstIh, secondIh, thirdIh]
  | foreign leaf => rfl

namespace Identical

theorem render_eq (identical : first.Identical second) : first.render = second.render := by
  rw [← first.render_mapPosition fun _ => 0, ← second.render_mapPosition fun _ => 0]
  exact congrArg render identical

theorem outline_eq (identical : first.Identical second) (level : Int) :
    first.outline level = second.outline level := by
  rw [← first.outline_mapPosition fun _ => 0, ← second.outline_mapPosition fun _ => 0]
  exact congrArg (outline level) identical

theorem evaluateReported_eq (identical : first.Identical second) (source other : Option String)
    (quantity : Int) :
    (first.evaluateReported source quantity).map (·.mapError Report.withoutPlace) =
      (second.evaluateReported other quantity).map (·.mapError Report.withoutPlace) := by
  cases outcome : first.evaluate quantity with
  | ok value =>
      rw [evaluateReported_of_ok source outcome,
        evaluateReported_of_ok other (identical.same.evaluate_ok_iff.mp outcome)]
  | error failure =>
      obtain ⟨reason, failed, accounts⟩ := identical.evaluate_eq_error outcome
      simp only [evaluateReported, outcome, failed, Failure.report_eq, accounts]
      cases failure.account <;> rfl

theorem answer_eq (identical : first.Identical second) (source other : Option String)
    (quantity : Int) : first.answer source quantity = second.answer other quantity := by
  rw [answer_eq_map, answer_eq_map, identical.evaluateReported_eq source other]

end Identical

theorem answer_eq_value_iff (source : Option String) {formula : Formula} {quantity value : Int} :
    formula.answer source quantity = .ok (.value value) ↔
      formula.evaluate quantity = .ok value := by
  rw [← evaluateReported_eq_value_iff source, answer]
  cases formula.evaluateReported source quantity with
  | error reason => simp [bind, Except.bind]
  | ok outcome => cases outcome <;> simp [bind, Except.bind, pure, Except.pure]

theorem rendered_essence (formula : Formula) : formula.essence.Rendered ↔ formula.Rendered := by
  simp only [Rendered]
  induction formula with
  | literal position number => exact Iff.rfl
  | quantity position => exact Iff.rfl
  | unary position operator operand ih => exact ih
  | binary position operator left right leftIh rightIh =>
      rw [essence, Genuine, Narrow, and_and_and_comm, leftIh, rightIh, and_and_and_comm]
      rfl
  | choice position condition consequent alternate firstIh secondIh thirdIh =>
      rw [essence, Genuine, Narrow, and_and_and_comm,
        and_and_and_comm (a := consequent.essence.Genuine), firstIh, secondIh, thirdIh,
        and_and_and_comm (a := consequent.Genuine), and_and_and_comm]
      rfl
  | foreign leaf => exact Iff.rfl

theorem Same.rendered_iff (same : first.Same second) : first.Rendered ↔ second.Rendered := by
  have equal : first.essence = second.essence := same
  rw [← first.rendered_essence, equal, second.rendered_essence]

end

end Formula

namespace Failure

theorem label_relabel (labels : Relabelling) (failure : Failure) :
    (failure.relabel labels).label = failure.label := by
  have node (formula : Formula) : (formula.relabel labels).symbol? = formula.symbol? := by
    cases formula <;> rfl
  cases failure <;> simp only [relabel, label, mishap, symbol?, node]

theorem label_eq {failure other : Failure}
    (alike : failure.relabel .essence = other.relabel .essence) : failure.label = other.label := by
  rw [← failure.label_relabel .essence, alike, other.label_relabel]

theorem written_iff [Writing] {failure other : Failure}
    (alike : failure.relabel .essence = other.relabel .essence)
    (quoted : ∀ leaf, failure = .foreign leaf → leaf.quoted.isSome)
    (otherQuoted : ∀ leaf, other = .foreign leaf → leaf.quoted.isSome) :
    failure.Written ↔ other.Written := by
  have node {first second : Formula}
      (same : first.relabel .essence = second.relabel .essence) :
      first.Rendered ↔ second.Rendered := by
    rw [Formula.relabel_essence, Formula.relabel_essence] at same
    exact Formula.Same.rendered_iff same
  cases failure <;> cases other <;> simp only [relabel, reduceCtorEq, quantity.injEq,
    divisionByZero.injEq, moduloByZero.injEq, overflow.injEq] at alike
  case quantity.quantity => rw [Written, Written, alike.2]
  case foreign.foreign leaf another => exact iff_of_true (quoted leaf rfl) (otherQuoted another rfl)
  case unknownOperator.unknownOperator => exact Iff.rfl
  all_goals exact node alike

end Failure

namespace Formula

variable {first second : Formula}

theorem Genuine.quotable {formula : Formula} (genuine : formula.Genuine) : formula.Quotable :=
  fun leaf within => absurd genuine ((not_genuine_iff formula).mpr ⟨leaf, within⟩)

theorem Quotable.of_fails {formula : Formula} {quantity : Int} {leaf : Foreign}
    (quotable : formula.Quotable) (failed : formula.evaluate quantity = .error (.foreign leaf)) :
    leaf.quoted.isSome := by
  obtain ⟨part, reached, defect⟩ := exists_defect failed
  cases defect
  exact quotable leaf reached.within

section

variable [Writing]

namespace Same

/-- Equal formulas fail together, in the same way and with the same operator. -/
theorem details_eq (same : first.Same second) {source other : Option String} {quantity : Int}
    {report reread : Report}
    (reported : first.evaluateReported source quantity = .ok (.error report))
    (again : second.evaluateReported other quantity = .ok (.error reread)) :
    ∃ mishap operator text words, report.details = .evaluation mishap operator text ∧
      reread.details = .evaluation mishap operator words := by
  obtain ⟨failure, failed, told⟩ := told_of_reported reported
  obtain ⟨reason, fails, retold⟩ := told_of_reported again
  obtain ⟨found, refails, alike⟩ := (same.alikeIn quantity).error failed
  cases fails.symm.trans refails
  obtain ⟨text, details⟩ := Failure.details_of_account told
  obtain ⟨words, others⟩ := Failure.details_of_account retold
  obtain ⟨mishaps, symbols⟩ := Prod.mk.inj (Failure.label_eq alike)
  exact ⟨_, _, text, words, details, by rw [others, mishaps, symbols]⟩

theorem verdict_eq (same : first.Same second) (quotable : first.Quotable)
    (other : second.Quotable) (source shown : Option String) (quantity : Int) :
    verdict (first.answer source quantity) = verdict (second.answer shown quantity) := by
  cases outcome : first.evaluate quantity with
  | ok value =>
      rw [answer_of_ok source outcome, answer_of_ok shown (same.evaluate_ok_iff.mp outcome)]
  | error failure =>
      obtain ⟨reason, failed, alike⟩ := (same.alikeIn quantity).error outcome
      have together : failure.Written ↔ reason.Written := by
        refine Failure.written_iff alike ?_ ?_
        · rintro leaf rfl
          exact quotable.of_fails outcome
        · rintro leaf rfl
          exact other.of_fails failed
      have mishaps : failure.mishap = reason.mishap := congrArg Prod.fst (Failure.label_eq alike)
      by_cases written : failure.Written
      · obtain ⟨account, told⟩ := failure.account_ok_iff.mpr written
        obtain ⟨again, retold⟩ := reason.account_ok_iff.mpr (together.mp written)
        rw [answer_of_told source outcome told, answer_of_told shown failed retold, mishaps]
        rfl
      · obtain ⟨leaf, escaped⟩ := answer_eq_error_of_not_written source outcome written
        obtain ⟨stuck, escapes⟩ :=
          answer_eq_error_of_not_written shown failed fun told => written (together.mpr told)
        rw [escaped, escapes]
        rfl

end Same

end

end Formula

namespace Selector

theorem same_equivalence : Equivalence Same where
  refl selector := ⟨rfl, .refl selector.tree⟩
  symm same := ⟨same.1.symm, same.2.symm⟩
  trans same alike := ⟨same.1.trans alike.1, same.2.trans alike.2⟩

variable [Writing] {first second : Selector}

theorem evaluate_int_eq_value_iff (selector : Selector) (quantity value : Int) :
    selector.evaluate (.int quantity) = .ok (.value value) ↔
      selector.tree.evaluate quantity = .ok value := by
  rw [← Formula.answer_eq_value_iff (some selector.formula), evaluate_eq_answer]
  cases selector.tree.answer (some selector.formula) quantity <;> simp [Except.mapError]

theorem Same.evaluate_eq_value_iff (same : first.Same second) (quantity : Value) (value : Int) :
    first.evaluate quantity = .ok (.value value) ↔
      second.evaluate quantity = .ok (.value value) := by
  rcases quantity.asQuantity_cases with ⟨number, rfl⟩ | ⟨refused, -⟩
  · rw [evaluate_int_eq_value_iff, evaluate_int_eq_value_iff, same.2.evaluate_ok_iff]
  · simp only [evaluate, Formula.answerTo, refused]
    exact Iff.rfl

theorem evaluate_eq (identical : first.tree.Identical second.tree) (quantity : Value) :
    first.evaluate quantity = second.evaluate quantity := by
  rw [evaluate, evaluate, Formula.answerTo, Formula.answerTo]
  cases quantity.asQuantity with
  | error refusal => rfl
  | ok number =>
      exact congrArg (Except.mapError Refusal.unwritable) (identical.answer_eq _ _ number)

omit [Writing] in
/-- The formula texts only enter into what is recorded. -/
theorem chosen_eq (count : first.count = second.count) (quantity : Int) (answer : Answer) :
    (first.chosen quantity answer).result = (second.chosen quantity answer).result := by
  cases answer with
  | failure message kind => rfl
  | value index =>
      simp only [chosen, count]
      split <;> rfl

theorem select_eq (count : first.count = second.count)
    (identical : first.tree.Identical second.tree) (quantity : Value) :
    (first.select quantity).result = (second.select quantity).result := by
  simp only [select, evaluate_eq identical]
  cases quantity.asQuantity with
  | error refusal => rfl
  | ok number =>
      cases second.evaluate quantity with
      | error refusal => rfl
      | ok answer => exact congrArg Except.ok (chosen_eq count number answer)

theorem select_toOption (selector : Selector) (quantity : Int) :
    (selector.select (.int quantity)).result.toOption =
      (verdict (selector.tree.answer (some selector.formula) quantity)).index selector.count := by
  simp only [select, Value.asQuantity_int, evaluate_eq_answer]
  cases selector.tree.answer (some selector.formula) quantity with
  | error reason => rfl
  | ok answer =>
      cases answer with
      | failure message kind => rfl
      | value index =>
          by_cases inside : 0 ≤ index ∧ index < selector.count <;>
            simp [Except.mapError, chosen, Verdict.index, verdict, Except.toOption, inside]

theorem Same.select_toOption_eq (same : first.Same second) (quotable : first.tree.Quotable)
    (other : second.tree.Quotable) (quantity : Value) :
    (first.select quantity).result.toOption = (second.select quantity).result.toOption := by
  rcases quantity.asQuantity_cases with ⟨number, rfl⟩ | ⟨refused, -⟩
  · rw [select_toOption, select_toOption, same.1, same.2.verdict_eq quotable other]
  · simp only [select, refused]

end Selector

namespace Formula

/-- Nothing tells formulas apart that differ in places alone, whatever sources are shown
with them. Equal formulas have one size and one value, are written together, and fail
together in the same way, with other texts at most; selectors are equal to the same
effect. Known formulas differ in places alone if their texts are the same. -/
theorem identical_indistinguishable [Writing] :
    (∀ first second : Formula, first.Identical second →
        (∀ (quantity : Int) (source other : Option String),
          first.answer source quantity = second.answer other quantity ∧
            (first.evaluateReported source quantity).map (·.mapError Report.withoutPlace) =
              (second.evaluateReported other quantity).map (·.mapError Report.withoutPlace)) ∧
          first.render = second.render ∧
          (∀ level, first.outline level = second.outline level) ∧ first.Same second) ∧
      (∀ first second : Formula, first.Same second →
        first.nodeCount = second.nodeCount ∧ first.treeDepth = second.treeDepth ∧
          ((∃ text, first.render = .ok text) ↔ ∃ text, second.render = .ok text) ∧
          ∀ (quantity : Int) (source other : Option String),
            (∀ value, first.evaluateReported source quantity = .ok (.ok value) ↔
              second.evaluateReported other quantity = .ok (.ok value)) ∧
            (∀ report reread, first.evaluateReported source quantity = .ok (.error report) →
              second.evaluateReported other quantity = .ok (.error reread) →
              ∃ mishap operator text words, report.details = .evaluation mishap operator text ∧
                reread.details = .evaluation mishap operator words) ∧
            (first.Quotable → second.Quotable →
              verdict (first.answer source quantity) = verdict (second.answer other quantity))) ∧
      Equivalence Selector.Same ∧
      (∀ first second : Selector, first.Same second → ∀ quantity : Value,
        (∀ value, first.evaluate quantity = .ok (.value value) ↔
          second.evaluate quantity = .ok (.value value)) ∧
        (∀ index, (first.select quantity).result = .ok (some index) ↔
          (second.select quantity).result = .ok (some index)) ∧
        (first.tree.Quotable → second.tree.Quotable →
          (first.select quantity).result.toOption = (second.select quantity).result.toOption) ∧
        (first.tree.Identical second.tree →
          first.evaluate quantity = second.evaluate quantity ∧
            (first.select quantity).result = (second.select quantity).result)) ∧
      ∀ (first second : Formula) (text : String), first.Known Number.Nonneg →
        second.Known Number.Nonneg → first.render = .ok text → second.render = .ok text →
        first.Identical second := by
  refine ⟨fun first second identical => ?_, fun first second same => ?_,
    Selector.same_equivalence, fun first second same quantity => ?_,
    fun first second text known other => known.identical_of_render other⟩
  · refine ⟨fun quantity source other => ?_, identical.render_eq, identical.outline_eq,
      identical.same⟩
    exact ⟨identical.answer_eq source other quantity,
      identical.evaluateReported_eq source other quantity⟩
  · refine ⟨same.nodeCount_eq, same.treeDepth_eq, ?_, fun quantity source other => ?_⟩
    · rw [render_ok_iff, render_ok_iff, same.rendered_iff]
    · refine ⟨fun value => ?_, fun report reread => same.details_eq, fun quotable others =>
        same.verdict_eq quotable others source other quantity⟩
      rw [evaluateReported_eq_value_iff, evaluateReported_eq_value_iff, same.evaluate_ok_iff]
  · refine ⟨same.evaluate_eq_value_iff quantity, fun index => ?_, fun quotable others =>
      same.select_toOption_eq quotable others quantity, fun identical =>
      ⟨Selector.evaluate_eq identical quantity, Selector.select_eq same.1 identical quantity⟩⟩
    rw [Selector.select_eq_some_iff, Selector.select_eq_some_iff, same.1,
      same.evaluate_eq_value_iff]

def zeroDivisor (place : Int) (dividend : Number) : Formula :=
  .binary (place + 2) (.known (.numeric .quotient)) (.literal place dividend)
    (.literal (place + 4) (.int 0))

attribute [local instance] Writing.standard

theorem identical_indistinguishable_zeroDivisor :
    (zeroDivisor 0 (.int 1)).Identical (zeroDivisor 7 (.int 1)) ∧
      (zeroDivisor 0 (.int 1)).answer (some "1 / 0") 5 =
        .ok (.failure "Division by zero in '1 / 0'" "division-by-zero") ∧
      (zeroDivisor 7 (.int 1)).answer none 5 =
        .ok (.failure "Division by zero in '1 / 0'" "division-by-zero") ∧
      (zeroDivisor 0 (.int 1)).Same (zeroDivisor 3 (.truth true)) ∧
      verdict ((zeroDivisor 3 (.truth true)).answer none 5) = .failure "division-by-zero" ∧
      (literal 0 (.int 18446744073709551616)).render = .ok "18446744073709551616" ∧
      (literal 0 (.int 18446744073709551616)).Identical
        (literal 3 (.int 18446744073709551616)) := by
  obtain ⟨alike, merely, -, -, told⟩ := identical_indistinguishable
  have identical : (zeroDivisor 0 (.int 1)).Identical (zeroDivisor 7 (.int 1)) := by decide
  have same : (zeroDivisor 0 (.int 1)).Same (zeroDivisor 3 (.truth true)) := by decide
  have answer : (zeroDivisor 0 (.int 1)).answer (some "1 / 0") 5 =
      .ok (.failure "Division by zero in '1 / 0'" "division-by-zero") := by rfl
  have moved := ((alike _ _ identical).1 5 (some "1 / 0") none).1
  have quotable (place : Int) (dividend : Number) : (zeroDivisor place dividend).Quotable :=
    Genuine.quotable ⟨trivial, trivial⟩
  have verdicts := ((merely _ _ same).2.2.2 5 (some "1 / 0") none).2.2 (quotable _ _)
    (quotable _ _)
  have known (place : Int) : (literal place (.int 18446744073709551616)).Known Number.Nonneg := by
    show (0 : Int) ≤ 18446744073709551616
    decide
  have text (place : Int) : (literal place (.int 18446744073709551616)).render =
      .ok "18446744073709551616" := by rfl
  exact ⟨identical, answer, moved ▸ answer, same, verdicts.symm.trans (by rw [answer]; rfl),
    text 0, told _ _ _ (known 0) (known 3) (text 0) (text 3)⟩

/-- Equal formulas are told apart by their texts. A truth value is written as itself, and
of two equal foreign leaves one can have a text that the other does not have. -/
theorem same_distinguished :
    (zeroDivisor 0 (.int 1)).Same (zeroDivisor 0 (.truth true)) ∧
      (zeroDivisor 0 (.int 1)).answer none 5 ≠ (zeroDivisor 0 (.truth true)).answer none 5 ∧
      (literal 0 (.int 1)).render ≠ (literal 0 (.truth true)).render ∧
      (literal 0 (.int 1)).outline 0 ≠ (literal 0 (.truth true)).outline 0 ∧
      (foreign ⟨"1E+4300", some "Decimal('1E+4300')", some "1E+4300"⟩).Same
        (foreign ⟨"1E+4300", none, none⟩) ∧
      (foreign ⟨"1E+4300", some "Decimal('1E+4300')", some "1E+4300"⟩).answer none 5 =
        .ok (.failure "Unknown AST node: Decimal('1E+4300')" "evaluation-error") ∧
      (foreign ⟨"1E+4300", none, none⟩).answer none 5 = .error .wide := by
  refine ⟨by decide, ?_, ?_, ?_, by decide, by rfl, by rfl⟩ <;> decide

end Formula

end PluralRule
