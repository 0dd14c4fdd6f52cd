import PluralRule.Formula.Evaluate
import PluralRule.Proofs.Evaluation.Exact
import PluralRule.Proofs.Known
import PluralRule.Proofs.Narrow
import PluralRule.Refusal

/-!
Evaluation in words against the exact meaning. Checks stand only where a value
can leave the range of words: at the quantity, at signs, and at the arithmetic
operations except remainders. Main statement: evaluation gives the exact value
when every demanded part fits in a word, and otherwise the failure of the first
demanded part that fails. A failure is reported unless the quantity itself is
what failed and is too long to be written.
-/

namespace PluralRule

def Failure.raised (quantity : Int) (part : Formula) : Mishap → Failure
  | .divisionByZero => .divisionByZero part
  | .moduloByZero => .moduloByZero part
  | _ =>
      match part with
      | .quantity position => .quantity position quantity
      | _ => .overflow part

theorem indicator_inRange (condition : Prop) [Decidable condition] :
    Word.InRange (indicator condition) := by
  by_cases holds : condition
  · simp [indicator, holds, Word.InRange, Word.least, Word.greatest]
  · simp [indicator, holds, Word.InRange, Word.least, Word.greatest]

/-- A remainder is no farther from zero than its dividend, and on the same side. -/
theorem tmod_inRange {left : Int} (right : Int) (inside : Word.InRange left) :
    Word.InRange (left.tmod right) := by
  have smaller : (left.tmod right).natAbs ≤ left.natAbs := by
    rw [Int.natAbs_tmod]
    exact Nat.mod_le _ _
  simp only [Word.InRange, Word.least, Word.greatest] at inside ⊢
  rcases Int.le_total 0 left with positive | negative
  · have side := Int.tmod_nonneg right positive
    omega
  · have side : 0 ≤ -(left.tmod right) := by
      rw [← Int.neg_tmod]
      exact Int.tmod_nonneg right (by omega)
    omega

namespace Formula

theorem truth_eq_indicator (condition : Prop) [Decidable condition] :
    truth (decide condition) = indicator condition := by
  by_cases holds : condition <;> simp [truth, indicator, holds]

theorem comparison_eq_decide (relation : Comparison) (left right : Int) :
    comparison relation left right = decide (relation.Holds left right) := by
  cases relation <;> rfl

def computed (node : Formula) : Operation → Int → Int → Except Failure Int
  | .logical _, _, second => .ok (truth (second ≠ 0))
  | .relational relation, first, second => .ok (truth (comparison relation first second))
  | .numeric operation, first, second => arithmetic node operation first second

theorem evaluate_binary (quantity position : Int) (operation : Operation) (left right : Formula) :
    evaluate quantity (.binary position (.known operation) left right) =
      (evaluate quantity left).bind fun first =>
        match (BinaryOperator.known operation).settled? first with
        | some value => .ok value
        | none => (evaluate quantity right).bind
            (computed (.binary position (.known operation) left right) operation first) := by
  rw [evaluate]
  congr 1
  funext first
  cases operation with
  | logical connective =>
      cases connective with
      | conjunction =>
          by_cases zero : first = 0
          · simp only [BinaryOperator.settled?, if_pos zero]
            rfl
          · simp only [BinaryOperator.settled?, if_neg zero]
            rfl
      | disjunction =>
          by_cases zero : first = 0
          · simp only [BinaryOperator.settled?, ne_eq, zero, not_true_eq_false, if_true, if_false]
            rfl
          · simp only [BinaryOperator.settled?, ne_eq, zero, not_false_eq_true, if_true, if_false]
            rfl
  | relational relation => rfl
  | numeric operation => rfl

end Formula

/-- The outcome of an evaluation is exact: the value where every demanded part
fits in a word, or the failure of the first one that fails. -/
inductive Exactly (quantity : Int) (formula : Formula) : Except Failure Int → Prop where
  | value {value : Int} (exact : formula.exact quantity = some value)
      (fits : ∀ part ∈ formula.demanded quantity, part.Fits quantity) :
      Exactly quantity formula (.ok value)
  | failure {before after : List Formula} {part : Formula} {mishap : Mishap}
      (order : formula.demanded quantity = before ++ part :: after)
      (fits : ∀ other ∈ before, other.Fits quantity) (fails : part.Fails quantity mishap) :
      Exactly quantity formula (.error (.raised quantity part mishap))

namespace Exactly

variable {quantity value : Int} {formula part : Formula} {result : Except Failure Int}

theorem finish (before : List Formula) (order : formula.demanded quantity = before ++ [formula])
    (fits : ∀ other ∈ before, other.Fits quantity) (exact : formula.exact quantity = some value)
    (inside : Word.InRange value) : Exactly quantity formula (.ok value) := by
  apply Exactly.value exact
  rw [order]
  refine List.forall_mem_append.mpr ⟨fits, ?_⟩
  intro other last
  rw [List.mem_singleton.mp last]
  exact ⟨value, exact, inside⟩

theorem fail {mishap : Mishap} {failure : Failure} (before : List Formula)
    (order : formula.demanded quantity = before ++ [formula])
    (fits : ∀ other ∈ before, other.Fits quantity) (fails : formula.Fails quantity mishap)
    (raises : Failure.raised quantity formula mishap = failure) :
    Exactly quantity formula (.error failure) := by
  rw [← raises]
  exact .failure order fits fails

theorem checked (before : List Formula) (order : formula.demanded quantity = before ++ [formula])
    (fits : ∀ other ∈ before, other.Fits quantity) (exact : formula.exact quantity = some value)
    (raises : Failure.raised quantity formula .overflow = .overflow formula) :
    Exactly quantity formula (Formula.checked formula value) := by
  unfold Formula.checked
  split
  · next inside => exact finish before order fits exact inside
  · next outside => exact fail before order fits (.range exact outside) raises

theorem bind {next : Int → Except Failure Int} {after : List Formula}
    (outcome : Exactly quantity part result) (before : List Formula)
    (order : formula.demanded quantity = before ++ part.demanded quantity ++ after)
    (fits : ∀ other ∈ before, other.Fits quantity)
    (continues : ∀ value, part.exact quantity = some value → Word.InRange value →
      (∀ other ∈ before ++ part.demanded quantity, other.Fits quantity) →
      Exactly quantity formula (next value)) :
    Exactly quantity formula (result.bind next) := by
  cases outcome with
  | @value value exact inner =>
      -- The operand is one of its own demanded parts, so its value is a word.
      rcases inner part (part.self_mem_demanded quantity) with ⟨again, same, inside⟩
      rw [exact] at same
      cases same
      exact continues value exact inside (List.forall_mem_append.mpr ⟨fits, inner⟩)
  | @failure front rest failed mishap split inner fails =>
      -- What fails first in the operand fails first in the formula.
      have whole : formula.demanded quantity = (before ++ front) ++ failed :: (rest ++ after) := by
        rw [order, split]
        simp
      exact .failure whole (List.forall_mem_append.mpr ⟨fits, inner⟩) fails

theorem adopt (outcome : Exactly quantity part result) (before : List Formula)
    (order : formula.demanded quantity = before ++ part.demanded quantity ++ [formula])
    (fits : ∀ other ∈ before, other.Fits quantity)
    (meaning : formula.exact quantity = part.exact quantity) : Exactly quantity formula result := by
  have continued : Exactly quantity formula (result.bind .ok) := by
    apply outcome.bind before order fits
    intro value partExact inside all
    exact finish _ order all (meaning.trans partExact) inside
  cases result <;> exact continued

end Exactly

namespace Formula

variable {quantity : Int}

section

variable {position first second : Int} {left right : Formula} {before : List Formula}

theorem arithmetic_exactly {operation : Arithmetic} {node : Formula}
    (shape : node = .binary position (.known (.numeric operation)) left right)
    (order : node.demanded quantity = before ++ [node])
    (fits : ∀ other ∈ before, other.Fits quantity) (inside : Word.InRange first)
    (rightExact : right.exact quantity = some second)
    (meaning : node.exact quantity = operation.exact first second) :
    Exactly quantity node (arithmetic node operation first second) := by
  have raises : Failure.raised quantity node .overflow = .overflow node := by rw [shape]; rfl
  cases operation with
  | sum => exact .checked before order fits meaning raises
  | difference => exact .checked before order fits meaning raises
  | product => exact .checked before order fits meaning raises
  | quotient =>
      by_cases zero : second = 0
      · rw [arithmetic, if_pos zero]
        subst zero shape
        exact .fail before order fits (.quotient rightExact) rfl
      · rw [arithmetic, if_neg zero, quotientTowardZero_eq_tdiv]
        rw [Arithmetic.exact, if_neg zero] at meaning
        exact .checked before order fits meaning raises
  | remainder =>
      by_cases zero : second = 0
      · rw [arithmetic, if_pos zero]
        subst zero shape
        exact .fail before order fits (.remainder rightExact) rfl
      · -- The only result of arithmetic that is not checked.
        rw [arithmetic, if_neg zero, remainderTowardZero_eq_tmod]
        rw [Arithmetic.exact, if_neg zero, ← Int.tmod_def] at meaning
        exact .finish before order fits meaning (tmod_inRange second inside)

theorem computed_exactly {operation : Operation} {node : Formula}
    (shape : node = .binary position (.known operation) left right)
    (order : node.demanded quantity = before ++ [node])
    (fits : ∀ other ∈ before, other.Fits quantity) (inside : Word.InRange first)
    (rightExact : right.exact quantity = some second)
    (meaning : node.exact quantity = (BinaryOperator.known operation).exact first second) :
    Exactly quantity node (computed node operation first second) := by
  cases operation with
  | logical connective =>
      rw [computed, truth_eq_indicator]
      exact .finish before order fits meaning (indicator_inRange _)
  | relational relation =>
      rw [computed, comparison_eq_decide, truth_eq_indicator]
      exact .finish before order fits meaning (indicator_inRange _)
  | numeric operation => exact arithmetic_exactly shape order fits inside rightExact meaning

theorem settled_inRange {operator : BinaryOperator} {value : Int}
    (settles : operator.settled? first = some value) : Word.InRange value := by
  unfold BinaryOperator.settled? at settles
  split at settles
  · split at settles <;> cases settles
    decide
  · split at settles <;> cases settles
    decide
  · cases settles

theorem binary_exactly (operation : Operation)
    (leftOutcome : Exactly quantity left (left.evaluate quantity))
    (rightOutcome : Exactly quantity right (right.evaluate quantity)) :
    Exactly quantity (.binary position (.known operation) left right)
      ((binary position (.known operation) left right).evaluate quantity) := by
  rw [evaluate_binary]
  apply leftOutcome.bind [] (List.append_assoc _ _ _) (by simp)
  intro first leftExact inside fits
  rw [List.nil_append] at fits
  cases settles : (BinaryOperator.known operation).settled? first with
  | some value =>
      -- The right operand is neither evaluated nor demanded.
      have order : (binary position (.known operation) left right).demanded quantity =
          left.demanded quantity ++ [.binary position (.known operation) left right] := by
        simp [demanded, leftExact, settles]
      have meaning : (binary position (.known operation) left right).exact quantity =
          some value := by
        simp [exact, leftExact, settles]
      exact .finish _ order fits meaning (settled_inRange settles)
  | none =>
      have order : (binary position (.known operation) left right).demanded quantity =
          left.demanded quantity ++ right.demanded quantity ++
            [.binary position (.known operation) left right] := by
        simp [demanded, leftExact, settles]
      apply rightOutcome.bind _ order fits
      intro second rightExact _ all
      apply computed_exactly rfl order all inside rightExact
      simp [exact, leftExact, settles, rightExact]

end

theorem choice_exactly {position : Int} {condition consequent alternate : Formula}
    (conditionOutcome : Exactly quantity condition (condition.evaluate quantity))
    (consequentOutcome : Exactly quantity consequent (consequent.evaluate quantity))
    (alternateOutcome : Exactly quantity alternate (alternate.evaluate quantity)) :
    Exactly quantity (.choice position condition consequent alternate)
      ((choice position condition consequent alternate).evaluate quantity) := by
  apply conditionOutcome.bind [] (List.append_assoc _ _ _) (by simp)
  intro chosen conditionExact _ fits
  rw [List.nil_append] at fits
  -- Only the branch that is taken is demanded, and its value is that of the choice.
  by_cases zero : chosen = 0
  · simp only [ne_eq, zero, not_true_eq_false, if_false]
    have order : (choice position condition consequent alternate).demanded quantity =
        condition.demanded quantity ++ alternate.demanded quantity ++
          [.choice position condition consequent alternate] := by
      simp [demanded, conditionExact, zero]
    have meaning : (choice position condition consequent alternate).exact quantity =
        alternate.exact quantity := by
      simp [exact, conditionExact, zero]
    exact alternateOutcome.adopt _ order fits meaning
  · simp only [ne_eq, zero, not_false_eq_true, if_true]
    have order : (choice position condition consequent alternate).demanded quantity =
        condition.demanded quantity ++ consequent.demanded quantity ++
          [.choice position condition consequent alternate] := by
      simp [demanded, conditionExact, zero]
    have meaning : (choice position condition consequent alternate).exact quantity =
        consequent.exact quantity := by
      simp [exact, conditionExact, zero]
    exact consequentOutcome.adopt _ order fits meaning

theorem Known.exactly {formula : Formula} (known : formula.Known Number.InRange) :
    Exactly quantity formula (formula.evaluate quantity) := by
  induction formula with
  | literal position number => exact .finish [] rfl (by simp) rfl known
  | quantity position =>
      rw [evaluate]
      split
      · next inside => exact .finish [] rfl (by simp) rfl inside
      · next outside => exact .fail [] rfl (by simp) (.range rfl outside) rfl
  | unary position operator operand ih =>
      have outcome := ih known.2
      cases operator with
      | negation =>
          apply outcome.bind [] rfl (by simp)
          intro value operandExact inside fits
          have meaning : (unary position .negation operand).exact quantity =
              some (indicator (value = 0)) := by
            simp [exact, operandExact, UnaryOperator.exact]
          rw [← truth_eq_indicator] at meaning
          exact .finish _ rfl fits meaning (by rw [truth_eq_indicator]; exact indicator_inRange _)
      | sign =>
          apply outcome.bind [] rfl (by simp)
          intro value operandExact inside fits
          have meaning : (unary position .sign operand).exact quantity = some (-value) := by
            simp [exact, operandExact, UnaryOperator.exact]
          exact .checked _ rfl fits meaning rfl
      | unknown symbol strange => exact absurd known.1 id
  | binary position operator left right leftIh rightIh =>
      cases operator with
      | known operation => exact binary_exactly operation (leftIh known.2.1) (rightIh known.2.2)
      | unknown symbol strange => exact absurd known.1 id
  | choice position condition consequent alternate firstIh secondIh thirdIh =>
      exact choice_exactly (firstIh known.1) (secondIh known.2.1) (thirdIh known.2.2)
  | foreign leaf => exact absurd known id

theorem Known.of_mem_demanded {formula part : Formula} {admits : Number → Prop}
    (known : formula.Known admits) (member : part ∈ formula.demanded quantity) :
    part.Known admits := by
  induction formula with
  | literal position number =>
      rw [List.mem_singleton.mp member]
      exact known
  | quantity position =>
      rw [List.mem_singleton.mp member]
      exact known
  -- The demanded parts of the operands come first, the node itself comes last.
  | unary position operator operand ih =>
      rcases List.mem_append.mp member with inner | own
      · exact ih known.2 inner
      · rw [List.mem_singleton.mp own]
        exact known
  | binary position operator left right leftIh rightIh =>
      rcases List.mem_append.mp member with inner | own
      · rcases List.mem_append.mp inner with before | after
        · exact leftIh known.2.1 before
        · split at after
          · cases after
          · exact rightIh known.2.2 after
      · rw [List.mem_singleton.mp own]
        exact known
  | choice position condition consequent alternate firstIh secondIh thirdIh =>
      rcases List.mem_append.mp member with inner | own
      · rcases List.mem_append.mp inner with before | after
        · exact firstIh known.1 before
        · split at after
          · split at after
            · exact secondIh known.2.1 after
            · exact thirdIh known.2.2 after
          · cases after
      · rw [List.mem_singleton.mp own]
        exact known
  | foreign leaf => exact absurd known id

end Formula

namespace Failure

variable [Writing]

theorem nodeReport_of_rendered (source : String) (mishap : Mishap) (wording : String)
    {node : Formula} (rendered : node.Rendered) :
    ∃ report, nodeReport source mishap wording node = .ok report ∧
      report.kind = mishap.kind ∧ report.position = node.position? := by
  rcases (Formula.render_ok_iff node).mpr rendered with ⟨text, written⟩
  exact ⟨_, by rw [nodeReport, written]; rfl, rfl, rfl⟩

theorem report_raised {quantity : Int} {part : Formula} {mishap : Mishap} (source : String)
    (rendered : part.Rendered) (short : Text.Narrow quantity)
    (fails : part.Fails quantity mishap) :
    ∃ report, (raised quantity part mishap).report source = .ok report ∧
      report.kind = mishap.kind ∧ report.position = part.position? := by
  cases fails with
  | quotient zero => exact nodeReport_of_rendered source .divisionByZero _ rendered
  | remainder zero => exact nodeReport_of_rendered source .moduloByZero _ rendered
  | range exact outside =>
      -- The report on the quantity shows its value, the others show a formula.
      cases part with
      | quantity position =>
          have written := Text.written?_of_narrow short
          exact ⟨_, by simp only [raised, report, written]; rfl, rfl, rfl⟩
      | _ => exact nodeReport_of_rendered source .overflow _ rendered

end Failure

namespace Formula

section

variable [Writing] {quantity : Int}

theorem evaluateReported_eq_value_iff (source : Option String) (formula : Formula) (value : Int) :
    formula.evaluateReported source quantity = .ok (.ok value) ↔
      formula.evaluate quantity = .ok value := by
  rw [evaluateReported]
  cases formula.evaluate quantity with
  | ok given => simp
  | error failure =>
      simp only [reduceCtorEq, iff_false]
      cases failure.report (source.getD "") <;> nofun

/-- A quantity that fails and is too long to be written is refused instead of reported. -/
theorem valueAt_of_wide {formula : Formula} {position : Int} (source : Option String)
    (failed : formula.evaluate quantity = .error (.quantity position quantity))
    (wide : ¬ Text.Narrow quantity) :
    formula.valueAt source (.int quantity) = .error (.unwritable .wide) := by
  have unreported : formula.evaluateReported source quantity = .error .wide := by
    rw [evaluateReported, failed]
    simp only [Failure.report, Text.written?_of_wide wide]
    rfl
  rw [valueAt, Value.asQuantity_int]
  exact congrArg (Except.mapError Refusal.unwritable) unreported

theorem evaluateReported_of_fits {formula : Formula} (known : formula.Known Number.InRange)
    (source : Option String) (fits : ∀ part ∈ formula.demanded quantity, part.Fits quantity) :
    ∃ value, formula.exact quantity = some value ∧ Word.InRange value ∧
      formula.evaluateReported source quantity = .ok (.ok value) := by
  have outcome : Exactly quantity formula (formula.evaluate quantity) := known.exactly
  cases evaluated : formula.evaluate quantity with
  | ok value =>
      rw [evaluated] at outcome
      rcases outcome with ⟨exact, -⟩
      -- The root is a demanded part itself, so its value is in range, checked or not.
      rcases fits formula (self_mem_demanded quantity formula) with ⟨again, same, inside⟩
      rw [exact] at same
      cases same
      exact ⟨value, exact, inside,
        (evaluateReported_eq_value_iff source formula value).mpr evaluated⟩
  | error failure =>
      rw [evaluated] at outcome
      obtain _ | @⟨before, after, part, mishap, order, -, fails⟩ := outcome
      have member : part ∈ formula.demanded quantity := by
        rw [order]
        exact List.mem_append_right before List.mem_cons_self
      exact absurd fails ((fits part member).not_fails mishap)

theorem evaluateReported_of_not_fits {formula : Formula} (known : formula.Known Number.InRange)
    (source : Option String) (unfit : ¬ ∀ part ∈ formula.demanded quantity, part.Fits quantity) :
    ∃ before part after mishap,
      formula.demanded quantity = before ++ part :: after ∧
      (∀ other ∈ before, ∀ mishap, ¬ other.Fails quantity mishap) ∧
      part.Fails quantity mishap ∧
      formula.evaluate quantity = .error (.raised quantity part mishap) ∧
      (Text.Narrow quantity → ∃ report,
        formula.evaluateReported source quantity = .ok (.error report) ∧
          report.kind = mishap.kind ∧ report.position = part.position?) := by
  have outcome : Exactly quantity formula (formula.evaluate quantity) := known.exactly
  cases evaluated : formula.evaluate quantity with
  | ok value =>
      rw [evaluated] at outcome
      rcases outcome with ⟨-, fits⟩
      exact absurd fits unfit
  | error failure =>
      rw [evaluated] at outcome
      obtain _ | @⟨before, after, part, mishap, order, fits, fails⟩ := outcome
      have member : part ∈ formula.demanded quantity := by
        rw [order]
        exact List.mem_append_right before List.mem_cons_self
      have sound : ∀ other ∈ before, ∀ mishap, ¬ other.Fails quantity mishap :=
        fun other earlier => (fits other earlier).not_fails
      refine ⟨before, part, after, mishap, order, sound, fails, rfl, fun short => ?_⟩
      have rendered := (known.of_mem_demanded member).rendered fun _ word => Word.narrow word
      obtain ⟨report, written, kind, place⟩ :=
        Failure.report_raised (source.getD "") rendered short fails
      refine ⟨report, ?_, kind, place⟩
      rw [evaluateReported, evaluated]
      simp only [written]
      rfl

/-- Evaluation refines the exact meaning: it returns the exact value of a
formula whose demanded parts all fit in words, and nothing but that, and
otherwise it fails at the first demanded part that fails, which it reports for
every quantity that is not too long to be written. -/
theorem evaluateReported_exact (formula : Formula) (known : formula.Known Number.InRange)
    (source : Option String) (quantity : Int) :
    (∀ value, formula.evaluateReported source quantity = .ok (.ok value) ↔
        formula.exact quantity = some value ∧
          ∀ part ∈ formula.demanded quantity, part.Fits quantity) ∧
      ((¬ ∀ part ∈ formula.demanded quantity, part.Fits quantity) →
        ∃ before part after mishap,
          formula.demanded quantity = before ++ part :: after ∧
          (∀ other ∈ before, ∀ mishap, ¬ other.Fails quantity mishap) ∧
          part.Fails quantity mishap ∧
          formula.evaluate quantity = .error (.raised quantity part mishap) ∧
          (Text.Narrow quantity → ∃ report,
            formula.evaluateReported source quantity = .ok (.error report) ∧
              report.kind = mishap.kind ∧ report.position = part.position?)) ∧
      (∀ value, formula.evaluateReported source quantity = .ok (.ok value) →
        Word.InRange value) := by
  have exactly : ∀ value, formula.evaluateReported source quantity = .ok (.ok value) →
      formula.exact quantity = some value ∧ Word.InRange value ∧
        ∀ part ∈ formula.demanded quantity, part.Fits quantity := by
    intro value returned
    by_cases fits : ∀ part ∈ formula.demanded quantity, part.Fits quantity
    · rcases evaluateReported_of_fits known source fits with ⟨other, exact, inside, same⟩
      rw [returned] at same
      cases same
      exact ⟨exact, inside, fits⟩
    · obtain ⟨_, _, _, _, _, _, _, failed, _⟩ := evaluateReported_of_not_fits known source fits
      rw [(evaluateReported_eq_value_iff source formula value).mp returned] at failed
      cases failed
  refine ⟨?_, evaluateReported_of_not_fits known source, ?_⟩
  · intro value
    constructor
    · intro returned
      rcases exactly value returned with ⟨exact, -, fits⟩
      exact ⟨exact, fits⟩
    · rintro ⟨exact, fits⟩
      rcases evaluateReported_of_fits known source fits with ⟨other, same, -, returned⟩
      rw [exact] at same
      cases same
      exact returned
  · intro value returned
    exact (exactly value returned).2.1

end

def lastDigit : Formula :=
  .binary 2 (.known (.numeric .remainder)) (.quantity 0) (.literal 4 (.int 10))

attribute [local instance] Writing.standard

theorem evaluateReported_exact_lastDigit :
    lastDigit.Known Number.InRange ∧ lastDigit.evaluateReported none (-7) = .ok (.ok (-7)) := by
  have known : lastDigit.Known Number.InRange := ⟨trivial, trivial, (by decide : Word.InRange 10)⟩
  refine ⟨known, ((evaluateReported_exact lastDigit known none (-7)).1 (-7)).mpr ⟨by decide, ?_⟩⟩
  have fits : ∀ part ∈ lastDigit.demanded (-7),
      ∃ value ∈ part.exact (-7), Word.InRange value := by decide
  exact fits

theorem lastDigit_unreported :
    lastDigit.Known Number.InRange ∧ lastDigit.exact 1 = some 1 ∧
      lastDigit.valueAt none (.bool true) = .error (.quantity (.bool true)) ∧
      ¬ Word.InRange Text.leastWide ∧
      lastDigit.valueAt none (.int Text.leastWide) = .error (.unwritable .wide) := by
  have failed : lastDigit.evaluate Text.leastWide = .error (.quantity 0 Text.leastWide) := by
    simp only [lastDigit, evaluate, if_neg Word.not_inRange_leastWide]
    rfl
  exact ⟨⟨trivial, trivial, (by decide : Word.InRange 10)⟩, by decide, rfl,
    Word.not_inRange_leastWide, valueAt_of_wide none failed Text.not_narrow_leastWide⟩

end Formula

end PluralRule
