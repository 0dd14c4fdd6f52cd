import PluralRule.Proofs.Evaluation.Account
import PluralRule.Proofs.Rendering.Reread

/-!
What a report on a failed evaluation says about a formula that was read from a
source. It stands at the place of the part that fails first, it tells what that
part alone would be told, and the text it quotes can be read and fails by itself
in the same way. Main statement: every failed evaluation is diagnosed so.
-/

namespace PluralRule

namespace Formula

/-- The nodes of the language whose results can leave the range of words. -/
inductive Computes : Formula → Prop where
  | sign {position : Int} {operand : Formula} : Computes (.unary position .sign operand)
  | arithmetic {position : Int} {operation : Arithmetic} {left right : Formula} :
      Computes (.binary position (.known (.numeric operation)) left right)

variable {quantity : Int} {formula part : Formula} {failure : Failure} {admits : Number → Prop}

section

variable [Writing]

theorem evaluateReported_of_ok {value : Int} (source : Option String)
    (evaluated : formula.evaluate quantity = .ok value) :
    formula.evaluateReported source quantity = .ok (.ok value) :=
  (evaluateReported_eq_value_iff source formula value).mpr evaluated

theorem evaluateReported_of_error {message : String} {details : Details} (source : Option String)
    (failed : formula.evaluate quantity = .error failure)
    (told : failure.account = .ok (message, details)) :
    formula.evaluateReported source quantity =
      .ok (.error ⟨message, failure.position?, some (source.getD ""), details⟩) := by
  rw [evaluateReported, failed]
  simp only [failure.report_eq, told]
  rfl

theorem evaluateReported_of_untold {reason : Unwritable} (source : Option String)
    (failed : formula.evaluate quantity = .error failure)
    (untold : failure.account = .error reason) :
    formula.evaluateReported source quantity = .error reason := by
  rw [evaluateReported, failed]
  simp only [failure.report_eq, untold]
  rfl

theorem told_of_reported {source : Option String} {report : Report}
    (reported : formula.evaluateReported source quantity = .ok (.error report)) :
    ∃ failure, formula.evaluate quantity = .error failure ∧
      failure.account = .ok (report.message, report.details) := by
  cases outcome : formula.evaluate quantity with
  | ok value =>
      rw [evaluateReported_of_ok source outcome] at reported
      cases reported
  | error failure =>
      cases account : failure.account with
      | ok told =>
          rw [evaluateReported_of_error source outcome account] at reported
          cases reported
          exact ⟨failure, rfl, account⟩
      | error reason =>
          rw [evaluateReported_of_untold source outcome account] at reported
          cases reported

theorem Defect.written (defect : Defect quantity part failure) (rendered : part.Rendered)
    (short : Text.Narrow quantity) : failure.Written := by
  cases defect with
  | quantity outside => exact short
  | operator leftValue rightValue => trivial
  | foreign => exact absurd rendered.1 id
  | _ => exact rendered

/-- A defect in a formula of the language is told with its place. Only the
quantity is told without an operator and a text. -/
theorem Defect.told (defect : Defect quantity part failure) (known : part.Known admits)
    (written : failure.Written) :
    ∃ message details place, failure.account = .ok (message, details) ∧
      failure.position? = some place ∧ part.position? = some place ∧
      ((∃ position, part = .quantity position ∧ ¬ Word.InRange quantity ∧
          details = .evaluation .overflow none none) ∨
        ∃ symbol text, part.Computes ∧ part.symbol? = some symbol ∧ part.render = .ok text ∧
          details = .evaluation failure.mishap (some symbol) (some text)) := by
  cases defect with
  | quantity outside =>
      exact ⟨_, _, _, Failure.account_of_quantity _ written, rfl, rfl,
        Or.inl ⟨_, rfl, outside, rfl⟩⟩
  | @sign position value operator operand negates given outside =>
      obtain ⟨text, rendered⟩ := (render_ok_iff _).mpr written
      cases operator with
      | negation => exact absurd rfl negates
      | sign =>
          exact ⟨_, _, _, Failure.nodeAccount_of_render _ _ rendered, rfl, rfl,
            Or.inr ⟨_, text, .sign, rfl, rendered, rfl⟩⟩
      | «unknown» symbol strange => exact absurd known.1 id
  | quotient leftValue zero =>
      obtain ⟨text, rendered⟩ := (render_ok_iff _).mpr written
      exact ⟨_, _, _, Failure.nodeAccount_of_render _ _ rendered, rfl, rfl,
        Or.inr ⟨_, text, .arithmetic, rfl, rendered, rfl⟩⟩
  | remainder leftValue zero =>
      obtain ⟨text, rendered⟩ := (render_ok_iff _).mpr written
      exact ⟨_, _, _, Failure.nodeAccount_of_render _ _ rendered, rfl, rfl,
        Or.inr ⟨_, text, .arithmetic, rfl, rendered, rfl⟩⟩
  | arithmetic checks leftValue rightValue exact outside =>
      obtain ⟨text, rendered⟩ := (render_ok_iff _).mpr written
      exact ⟨_, _, _, Failure.nodeAccount_of_render _ _ rendered, rfl, rfl,
        Or.inr ⟨_, text, .arithmetic, rfl, rendered, rfl⟩⟩
  -- Known formulas have no unknown operators and no foreign leaves.
  | operator leftValue rightValue => exact absurd known.1 id
  | foreign => exact absurd known id

theorem Known.refails {text message : String} {details : Details} {limits : Limits}
    (known : part.Known Writable) (rendered : part.render = .ok text)
    (allowed : limits.Allow text part) (failed : part.evaluate quantity = .error failure)
    (told : failure.account = .ok (message, details)) :
    ∃ again reread, ofSource limits text = .ok again ∧ again.Identical part ∧
      again.evaluateReported (some text) quantity = .ok (.error reread) ∧
      reread.message = message ∧ reread.details = details := by
  rcases known.readBack false with ⟨written, same, -, spelled⟩
  have one : written = text := Except.ok.inj (same.symm.trans rendered)
  subst one
  obtain ⟨again, read, alike⟩ := ofSource_of_allow spelled allowed
  obtain ⟨other, fails, account⟩ := alike.symm.evaluate_eq_error failed
  rw [told] at account
  exact ⟨again, _, read, alike, evaluateReported_of_error _ fails account, rfl, rfl⟩

theorem Known.value_or_reported (known : formula.Known Writable) (source : Option String)
    (short : Text.Narrow quantity) :
    (∃ value, formula.evaluateReported source quantity = .ok (.ok value)) ∨
      ∃ report, formula.evaluateReported source quantity = .ok (.error report) := by
  cases outcome : formula.evaluate quantity with
  | ok value => exact Or.inl ⟨value, evaluateReported_of_ok source outcome⟩
  | error failure =>
      obtain ⟨part, reached, defect⟩ := exists_defect outcome
      have language : part.Known Writable := known.of_within reached.within
      have rendered := language.rendered fun number => narrow_of_writable
      obtain ⟨⟨message, details⟩, told⟩ :=
        failure.account_ok_iff.mpr (defect.written rendered short)
      exact Or.inr ⟨_, evaluateReported_of_error source outcome told⟩

/-- A formula that was read has a value or is reported on at every quantity that can be
written. A report is on the part that fails first. Evaluated alone, that part is
reported in the same way, and so is the formula that the quoted text is read as. -/
theorem evaluateReported_diagnoses (limits : Limits) (source : String) (formula : Formula)
    (quantity : Int) (read : ofSource limits source = .ok formula) :
    (Text.Narrow quantity →
      (∃ value, formula.evaluateReported (some source) quantity = .ok (.ok value)) ∨
        ∃ report, formula.evaluateReported (some source) quantity = .ok (.error report)) ∧
    ∀ report, formula.evaluateReported (some source) quantity = .ok (.error report) →
      ∃ part failure,
        part.Within formula ∧ Reached quantity formula part ∧ Defect quantity part failure ∧
        (∃ place, part.position? = some place ∧ report.position = some place) ∧
        part.evaluateReported (some source) quantity = .ok (.error report) ∧
        (∀ child ∈ part.taken quantity,
          ∃ value, child.evaluateReported (some source) quantity = .ok (.ok value)) ∧
        ((∃ position, part = .quantity position ∧ ¬ Word.InRange quantity ∧
            report.details = .evaluation .overflow none none) ∨
          ∃ symbol text, part.Computes ∧ part.symbol? = some symbol ∧ part.render = .ok text ∧
            report.details = .evaluation failure.mishap (some symbol) (some text) ∧
            ∀ larger : Limits, larger.Allow text part →
              ∃ again reread, ofSource larger text = .ok again ∧ again.Identical part ∧
                again.evaluateReported (some text) quantity = .ok (.error reread) ∧
                reread.message = report.message ∧ reread.details = report.details) := by
  have whole : formula.Known Writable := known_of_ofSource read
  refine ⟨whole.value_or_reported (some source), fun report reported => ?_⟩
  obtain ⟨failure, outcome, account⟩ := told_of_reported reported
  rw [evaluateReported_of_error _ outcome account] at reported
  obtain ⟨part, reached, defect⟩ := exists_defect outcome
  have known : part.Known Writable := whole.of_within reached.within
  have fails := defect.evaluate_eq
  have alone := (evaluateReported_of_error (some source) fails account).trans reported
  obtain ⟨message, details, place, told, stands, placed, kinds⟩ :=
    defect.told known (failure.account_ok_iff.mp ⟨_, account⟩)
  cases told.symm.trans account
  refine ⟨part, failure, reached.within, reached, defect, ⟨place, placed, ?_⟩, alone, ?_, ?_⟩
  · rw [← stands, ← Except.error.inj (Except.ok.inj reported)]
  · intro child member
    obtain ⟨value, evaluated⟩ := defect.sound child member
    exact ⟨value, evaluateReported_of_ok _ evaluated⟩
  · rcases kinds with quantity | ⟨symbol, text, computes, written, rendered, detailed⟩
    · exact Or.inl quantity
    · exact Or.inr ⟨symbol, text, computes, written, rendered, detailed,
        fun larger allowed => known.refails rendered allowed fails account⟩

end

/-- A remainder that only some quantities reach, and that has none at three: `n&&10%(n-3)`. -/
def guardedRemainder : Formula :=
  .binary 1 (.known (.logical .conjunction)) (.quantity 0)
    (.binary 5 (.known (.numeric .remainder)) (.literal 3 (.int 10))
      (.binary 8 (.known (.numeric .difference)) (.quantity 7) (.literal 9 (.int 3))))

theorem ofSource_guardedRemainder :
    ofSource Limits.standard "n&&10%(n-3)" = .ok guardedRemainder := by
  have scan : (Token.scan 0 "n&&10%(n-3)".toList) =
      ⟨[⟨.quantity, "n", 0⟩, ⟨.and, "&&", 1⟩, ⟨.number, "10", 3⟩, ⟨.percent, "%", 5⟩,
        ⟨.opening, "(", 6⟩, ⟨.quantity, "n", 7⟩, ⟨.minus, "-", 8⟩, ⟨.number, "3", 9⟩,
        ⟨.closing, ")", 10⟩], 11, none⟩ := by
    decide +kernel
  rw [ofSource, Token.ofSource, Scanner.run_start (by decide), scan]
  exact (measured_eq_ok_iff _ _ _).mpr ⟨rfl, by decide, by decide⟩

attribute [local instance] Writing.standard

theorem evaluateReported_diagnoses_guardedRemainder :
    ofSource Limits.standard "n&&10%(n-3)" = .ok guardedRemainder ∧
      ∃ report part failure,
        guardedRemainder.evaluateReported (some "n&&10%(n-3)") 3 = .ok (.error report) ∧
        part.evaluateReported (some "n&&10%(n-3)") 3 = .ok (.error report) ∧
        Defect 3 part failure ∧ report.position = some 5 ∧ part.render = .ok "10 % (n - 3)" ∧
        report.details = .evaluation .moduloByZero (some "%") (some "10 % (n - 3)") := by
  have reported : guardedRemainder.evaluateReported (some "n&&10%(n-3)") 3 =
      .ok (.error ⟨"Modulo by zero in '10 % (n - 3)'", some 5, some "n&&10%(n-3)",
        .evaluation .moduloByZero (some "%") (some "10 % (n - 3)")⟩) := by
    rfl
  obtain ⟨part, failure, -, -, defect, -, alone, -, kinds⟩ :=
    (evaluateReported_diagnoses _ _ _ 3 ofSource_guardedRemainder).2 _ reported
  refine ⟨ofSource_guardedRemainder, _, part, failure, reported, alone, defect, rfl, ?_, rfl⟩
  rcases kinds with ⟨position, -, -, details⟩ | ⟨symbol, text, -, -, rendered, details, -⟩
  · cases details
  · injection details with _ _ quoted
    rw [rendered, ← Option.some.inj quoted]

theorem guardedRemainder_undiagnosed :
    ofSource Limits.standard "n&&10%(n-3)" = .ok guardedRemainder ∧
      guardedRemainder.valueAt (some "n&&10%(n-3)") (.bool true) =
        .error (.quantity (.bool true)) ∧
      guardedRemainder.valueAt (some "n&&10%(n-3)") (.int Text.leastWide) =
        .error (.unwritable .wide) := by
  refine ⟨ofSource_guardedRemainder, rfl, ?_⟩
  have failed : guardedRemainder.evaluate Text.leastWide = .error (.quantity 0 Text.leastWide) := by
    simp only [guardedRemainder, evaluate, if_neg Word.not_inRange_leastWide]
    rfl
  exact valueAt_of_wide _ failed Text.not_narrow_leastWide

end Formula

end PluralRule
