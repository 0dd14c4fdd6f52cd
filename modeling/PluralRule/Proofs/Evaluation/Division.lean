import Mathlib.Algebra.Order.Floor.Ring
import Mathlib.Data.Rat.Floor
import Mathlib.Tactic.Linarith
import PluralRule.Proofs.Evaluation.Answers
import PluralRule.Proofs.Evaluation.Compositional

/-!
Quotients and remainders. Together they make up the dividend, the remainder is
smaller than the divisor and on the side of the dividend, and this determines
them both: the quotient is the ratio, rounded toward zero. Main statement: the
quotient and the remainder that evaluation computes are these, and among the
words only the least one divided by minus one has a quotient that is no word.
What fails is reported where the operands can be written.
-/

namespace PluralRule

/-- The quotient and the remainder make up the dividend, and the remainder is
smaller than the divisor and not on the other side of zero than the dividend. -/
structure Division (dividend divisor quotient remainder : Int) : Prop where
  whole : dividend = divisor * quotient + remainder
  small : remainder.natAbs < divisor.natAbs
  sided : remainder = 0 ∨ remainder.sign = dividend.sign

def towardZero (ratio : ℚ) : Int := if 0 ≤ ratio then ⌊ratio⌋ else ⌈ratio⌉

namespace Division

variable {dividend divisor quotient remainder : Int}

theorem neg (division : Division dividend divisor quotient remainder) :
    Division (-dividend) (-divisor) quotient (-remainder) := by
  refine ⟨?_, ?_, ?_⟩
  · rw [division.whole, Int.neg_mul, ← Int.neg_add]
  · rw [Int.natAbs_neg, Int.natAbs_neg]
    exact division.small
  · simpa [Int.sign_neg] using division.sided

theorem nonneg_of_nonneg (division : Division dividend divisor quotient remainder)
    (above : 0 ≤ dividend) : 0 ≤ remainder := by
  rcases division.sided with zero | same
  · exact zero.ge
  · rw [← Int.sign_nonneg_iff, same, Int.sign_nonneg_iff]
    exact above

theorem towardZero_of_nonneg (division : Division dividend divisor quotient remainder)
    (positive : 0 < divisor) (above : 0 ≤ dividend) :
    towardZero (dividend / divisor) = quotient := by
  have side := division.nonneg_of_nonneg above
  have small := division.small
  have bound : remainder < divisor := by omega
  have whole : (dividend : ℚ) = divisor * quotient + remainder := by
    exact_mod_cast division.whole
  have divisorPos : (0 : ℚ) < divisor := by exact_mod_cast positive
  have low : (0 : ℚ) ≤ remainder := by exact_mod_cast side
  have high : (remainder : ℚ) < divisor := by exact_mod_cast bound
  have ratio : (0 : ℚ) ≤ dividend / divisor :=
    div_nonneg (by exact_mod_cast above) divisorPos.le
  rw [towardZero, if_pos ratio, Int.floor_eq_iff, le_div_iff₀ divisorPos,
    div_lt_iff₀ divisorPos]
  constructor <;> linarith

theorem towardZero_of_neg (division : Division dividend divisor quotient remainder)
    (positive : 0 < divisor) (below : dividend < 0) :
    towardZero (dividend / divisor) = quotient := by
  have side := division.neg.nonneg_of_nonneg (by omega)
  have small := division.small
  have bound : -divisor < remainder := by omega
  have whole : (dividend : ℚ) = divisor * quotient + remainder := by
    exact_mod_cast division.whole
  have divisorPos : (0 : ℚ) < divisor := by exact_mod_cast positive
  have high : (remainder : ℚ) ≤ 0 := by exact_mod_cast Int.neg_nonneg.mp side
  have low : -(divisor : ℚ) < remainder := by exact_mod_cast bound
  have ratio : ¬ (0 : ℚ) ≤ dividend / divisor :=
    not_le.mpr (div_neg_of_neg_of_pos (by exact_mod_cast below) divisorPos)
  rw [towardZero, if_neg ratio, Int.ceil_eq_iff, lt_div_iff₀ divisorPos,
    div_le_iff₀ divisorPos]
  constructor <;> linarith

theorem towardZero_eq (division : Division dividend divisor quotient remainder) :
    towardZero (dividend / divisor) = quotient := by
  have of_pos {dividend divisor remainder : Int} (positive : 0 < divisor)
      (division : Division dividend divisor quotient remainder) :
      towardZero (dividend / divisor) = quotient := by
    rcases lt_or_ge dividend 0 with below | above
    · exact division.towardZero_of_neg positive below
    · exact division.towardZero_of_nonneg positive above
  rcases lt_or_ge 0 divisor with positive | negative
  · exact of_pos positive division
  · -- Both signs are turned where the divisor is below zero; the ratio stays.
    have small := division.small
    have turned := of_pos (show 0 < -divisor by omega) division.neg
    rwa [Int.cast_neg, Int.cast_neg, neg_div_neg_eq] at turned

theorem unique {other rest : Int} (division : Division dividend divisor quotient remainder)
    (again : Division dividend divisor other rest) : quotient = other ∧ remainder = rest := by
  have quotients : quotient = other := division.towardZero_eq.symm.trans again.towardZero_eq
  have first := division.whole
  have second := again.whole
  subst quotients
  omega

end Division

namespace Formula

variable {dividend divisor : Int}

theorem division_quotientTowardZero (dividend : Int) (nonzero : divisor ≠ 0) :
    Division dividend divisor (quotientTowardZero dividend divisor)
      (remainderTowardZero dividend divisor) := by
  refine ⟨?_, ?_, ?_⟩
  · rw [remainderTowardZero]
    omega
  · rw [remainderTowardZero_eq_tmod, Int.natAbs_tmod]
    exact Nat.mod_lt _ (Int.natAbs_pos.mpr nonzero)
  · rw [remainderTowardZero_eq_tmod, ← Int.sign_eq_zero_iff_zero, Int.sign_tmod]
    split
    · exact Or.inl rfl
    · exact Or.inr rfl

/-- Halving is enough to stay a word, so only a divisor next to zero can lead out of the range. -/
theorem quotient_inRange_iff (inside : Word.InRange dividend) (nonzero : divisor ≠ 0) :
    Word.InRange (quotientTowardZero dividend divisor) ↔
      ¬ (dividend = Word.least ∧ divisor = -1) := by
  rw [quotientTowardZero_eq_tdiv]
  simp only [Word.InRange, Word.least, Word.greatest] at inside ⊢
  by_cases minus : divisor = -1
  · rw [minus, Int.tdiv_neg, Int.tdiv_one]
    omega
  by_cases one : divisor = 1
  · rw [one, Int.tdiv_one]
    omega
  have halved : (dividend.tdiv divisor).natAbs ≤ dividend.natAbs / 2 := by
    rw [Int.natAbs_tdiv]
    exact Nat.div_le_div_left (by omega) (by decide)
  omega

variable {quantity : Int} {source : Option String} {formula left right : Formula}

section

variable [Writing]

def Raises (source : Option String) (quantity : Int) (formula : Formula) (mishap : Mishap) : Prop :=
  ∃ report operator text, formula.evaluateReported source quantity = .ok (.error report) ∧
    report.details = .evaluation mishap operator text

/-- Evaluation fails in the way: with a report if the formula can be written, and else
without an answer. -/
structure FailsWith (source : Option String) (quantity : Int) (formula : Formula)
    (mishap : Mishap) :
    Prop where
  raises : formula.Rendered → formula.Raises source quantity mishap
  escapes : ¬ formula.Rendered →
    ∃ reason, formula.evaluateReported source quantity = .error reason

theorem mishap_of_raises {mishap : Mishap} (raises : formula.Raises source quantity mishap) :
    ∃ failure, formula.evaluate quantity = .error failure ∧ failure.mishap.kind = mishap.kind := by
  obtain ⟨report, operator, text, reported, details⟩ := raises
  obtain ⟨failure, failed, told⟩ := told_of_reported reported
  have kinds := Failure.kind_of_account told
  rw [details] at kinds
  exact ⟨failure, failed, kinds.symm⟩

theorem fails_of_quoting {failure : Failure} {mishap : Mishap} {wording : String}
    (source : Option String) (failed : formula.evaluate quantity = .error failure)
    (quotes : failure.account = Failure.nodeAccount mishap wording formula) :
    formula.FailsWith source quantity mishap := by
  constructor
  · intro rendered
    obtain ⟨text, written⟩ := (render_ok_iff formula).mpr rendered
    rw [Failure.nodeAccount_of_render _ _ written] at quotes
    exact ⟨_, _, _, evaluateReported_of_error source failed quotes, rfl⟩
  · intro strange
    rw [← Failure.nodeAccount_ok_iff mishap wording, ← quotes] at strange
    cases account : failure.account with
    | ok told => exact absurd ⟨told, account⟩ strange
    | error reason => exact ⟨reason, evaluateReported_of_untold source failed account⟩

end

section

variable (position : Int) (leftValue : left.evaluate quantity = .ok dividend)
  (rightValue : right.evaluate quantity = .ok divisor)

include leftValue rightValue

theorem evaluate_quotient :
    (binary position (.known (.numeric .quotient)) left right).evaluate quantity =
      if divisor = 0 then
        .error (.divisionByZero (.binary position (.known (.numeric .quotient)) left right))
      else
        checked (.binary position (.known (.numeric .quotient)) left right)
          (quotientTowardZero dividend divisor) :=
  evaluate_of_values leftValue rfl rightValue

theorem evaluate_remainder :
    (binary position (.known (.numeric .remainder)) left right).evaluate quantity =
      if divisor = 0 then
        .error (.moduloByZero (.binary position (.known (.numeric .remainder)) left right))
      else .ok (remainderTowardZero dividend divisor) :=
  evaluate_of_values leftValue rfl rightValue

theorem quotient_overflows [Writing] (source : Option String) (least : dividend = Word.least)
    (minus : divisor = -1) :
    (binary position (.known (.numeric .quotient)) left right).FailsWith source quantity
      .overflow := by
  have outcome := evaluate_quotient position leftValue rightValue
  subst least minus
  rw [if_neg (by decide), checked_of_outside _ (by decide)] at outcome
  exact fails_of_quoting source outcome rfl

theorem least_of_quotient_overflows [Writing] (inside : Word.InRange dividend)
    (raises :
      (binary position (.known (.numeric .quotient)) left right).Raises source quantity .overflow) :
    dividend = Word.least ∧ divisor = -1 := by
  obtain ⟨failure, failed, kind⟩ := mishap_of_raises raises
  rw [evaluate_quotient position leftValue rightValue] at failed
  by_cases zero : divisor = 0
  · rw [if_pos zero] at failed
    cases failed
    simp [Failure.mishap, Mishap.kind] at kind
  · rw [if_neg zero, checked] at failed
    by_contra other
    rw [if_pos ((quotient_inRange_iff inside zero).mpr other)] at failed
    cases failed

end

/-- Quotients and remainders go by the division law, which determines them, and
quotients are rounded toward zero. Evaluation fails for zero divisors, computes the
quotient of all other words but one pair, and every remainder. -/
theorem division_towardZero [Writing] :
    (∀ dividend divisor : Int, divisor ≠ 0 →
        Division dividend divisor (quotientTowardZero dividend divisor)
          (remainderTowardZero dividend divisor) ∧
        quotientTowardZero dividend divisor = towardZero ((dividend : ℚ) / divisor) ∧
        ∀ quotient remainder, Division dividend divisor quotient remainder →
          quotient = quotientTowardZero dividend divisor ∧
            remainder = remainderTowardZero dividend divisor) ∧
      ∀ (source : Option String) (quantity position dividend divisor : Int)
        (left right : Formula),
        left.evaluateReported source quantity = .ok (.ok dividend) →
        right.evaluateReported source quantity = .ok (.ok divisor) →
        Word.InRange dividend →
        (divisor = 0 →
          (binary position (.known (.numeric .quotient)) left right).FailsWith source quantity
              .divisionByZero ∧
            (binary position (.known (.numeric .remainder)) left right).FailsWith source quantity
              .moduloByZero) ∧
          (dividend = Word.least → divisor = -1 →
            (binary position (.known (.numeric .quotient)) left right).FailsWith source quantity
              .overflow) ∧
          ((binary position (.known (.numeric .quotient)) left right).Raises source quantity
              .overflow → dividend = Word.least ∧ divisor = -1) ∧
          (divisor ≠ 0 → ¬ (dividend = Word.least ∧ divisor = -1) →
            (binary position (.known (.numeric .quotient)) left right).evaluateReported source
              quantity = .ok (.ok (quotientTowardZero dividend divisor))) ∧
          (divisor ≠ 0 →
            (binary position (.known (.numeric .remainder)) left right).evaluateReported source
                quantity = .ok (.ok (remainderTowardZero dividend divisor)) ∧
              Word.InRange (remainderTowardZero dividend divisor)) := by
  constructor
  · intro dividend divisor nonzero
    have division := division_quotientTowardZero dividend nonzero
    exact ⟨division, division.towardZero_eq.symm, fun quotient remainder law => law.unique division⟩
  · intro source quantity position dividend divisor left right leftReported rightReported inside
    have leftValue := (evaluateReported_eq_value_iff source left dividend).mp leftReported
    have rightValue := (evaluateReported_eq_value_iff source right divisor).mp rightReported
    have quotient := evaluate_quotient position leftValue rightValue
    have remainder := evaluate_remainder position leftValue rightValue
    refine ⟨fun zero => ?_, quotient_overflows position leftValue rightValue source,
      least_of_quotient_overflows position leftValue rightValue inside,
      fun nonzero other => ?_, fun nonzero => ⟨?_, ?_⟩⟩
    · rw [if_pos zero] at quotient remainder
      exact ⟨fails_of_quoting source quotient rfl, fails_of_quoting source remainder rfl⟩
    · have fits := (quotient_inRange_iff inside nonzero).mpr other
      rw [if_neg nonzero, checked, if_pos fits] at quotient
      exact evaluateReported_of_ok source quotient
    · rw [if_neg nonzero] at remainder
      exact evaluateReported_of_ok source remainder
    · rw [remainderTowardZero_eq_tmod]
      exact tmod_inRange divisor inside

attribute [local instance] Writing.standard

theorem division_towardZero_leastWord :
    Division (-7) 2 (-3) (-1) ∧
      (binary 1 (.known (.numeric .quotient)) (.literal 0 (.int Word.least))
        (.unary 2 .sign (.quantity 3))).Raises none 1 .overflow ∧
      (binary 1 (.known (.numeric .remainder)) (.literal 0 (.int Word.least))
        (.unary 2 .sign (.quantity 3))).evaluateReported none 1 = .ok (.ok 0) := by
  obtain ⟨law, evaluates⟩ := division_towardZero
  obtain ⟨-, overflows, -, -, remains⟩ := evaluates none 1 1 Word.least (-1)
    (.literal 0 (.int Word.least)) (.unary 2 .sign (.quantity 3)) rfl rfl (by decide)
  have rendered : (binary 1 (.known (.numeric .quotient)) (.literal 0 (.int Word.least))
      (.unary 2 .sign (.quantity 3))).Rendered := by
    exact ⟨⟨trivial, trivial⟩, (by decide : Text.Narrow Word.least), trivial⟩
  exact ⟨(law (-7) 2 (by decide)).1, (overflows rfl rfl).raises rendered, (remains (by decide)).1⟩

/-- A divisor whose value is zero without regard to a literal that is too long to be written. -/
def skippedWide : Formula :=
  .binary 1 (.known (.numeric .quotient)) (.literal 0 (.int 1))
    (.binary 3 (.known (.logical .conjunction)) (.quantity 2) (.literal 5 (.int Text.leastWide)))

theorem not_raises_skipped :
    (binary 3 (.known (.logical .conjunction)) (.quantity 2) (.foreign strayText)).evaluateReported
        none 0 = .ok (.ok 0) ∧
      ¬ skippedLeaf.Raises none 0 .divisionByZero ∧
      (binary 3 (.known (.logical .conjunction)) (.quantity 2)
        (.literal 5 (.int Text.leastWide))).evaluateReported none 0 = .ok (.ok 0) ∧
      ¬ skippedWide.Raises none 0 .divisionByZero := by
  have leaf : skippedLeaf.FailsWith none 0 .divisionByZero :=
    fails_of_quoting none (rfl : _ = Except.error (Failure.divisionByZero skippedLeaf)) rfl
  have wide : skippedWide.FailsWith none 0 .divisionByZero :=
    fails_of_quoting none (rfl : _ = Except.error (Failure.divisionByZero skippedWide)) rfl
  obtain ⟨reason, escaped⟩ := leaf.escapes fun rendered => rendered.1.2.2
  obtain ⟨other, unwritten⟩ := wide.escapes fun rendered =>
    Text.not_narrow_leastWide rendered.2.2.2
  refine ⟨rfl, ?_, rfl, ?_⟩
  · rintro ⟨report, operator, text, reported, -⟩
    cases escaped.symm.trans reported
  · rintro ⟨report, operator, text, reported, -⟩
    cases unwritten.symm.trans reported

end Formula

end PluralRule
