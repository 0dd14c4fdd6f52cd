import PluralRule.Proofs.Evaluation.Diagnosis

/-!
What an evaluation can answer. A formula that was read from a source is answered
with a value or with a failure of its arithmetic. A formula that was built by
hand may hold anything; it is answered as well, unless the part that fails first
has to be quoted and is not written. Main statement: these are all answers, and
where nothing is too long to be written only foreign leaves stand against one.
-/

namespace PluralRule

def Mishap.arithmeticKinds : List String :=
  ["division-by-zero", "modulo-by-zero", "arithmetic-overflow"]

theorem Mishap.kind_mem_arithmeticKinds {mishap : Mishap} (special : mishap ≠ .general) :
    mishap.kind ∈ arithmeticKinds := by
  cases mishap with
  | general => exact absurd rfl special
  | _ => simp [kind, arithmeticKinds]

namespace Formula

/-- Nothing in the formula is too long to be written, also inside of foreign leaves. -/
def Legible [Writing] : Formula → Prop
  | .literal _ number => Text.Narrow number.value
  | .quantity _ => True
  | .unary _ _ operand => operand.Legible
  | .binary _ _ left right => left.Legible ∧ right.Legible
  | .choice _ condition consequent alternate =>
      condition.Legible ∧ consequent.Legible ∧ alternate.Legible
  | .foreign leaf => leaf.quoted.isSome

variable {quantity : Int} {formula part : Formula} {failure : Failure} {source : Option String}

theorem Known.mishap_ne_general {admits : Number → Prop} (known : formula.Known admits)
    (failed : formula.evaluate quantity = .error failure) : failure.mishap ≠ .general := by
  obtain ⟨part, reached, defect⟩ := exists_defect failed
  have language : part.Known admits := known.of_within reached.within
  cases defect with
  | operator leftValue rightValue => exact absurd language.1 id
  | foreign => exact absurd language id
  | _ =>
      intro same
      cases same

section

variable [Writing]

theorem Legible.narrow (legible : formula.Legible) : formula.Narrow := by
  induction formula with
  | literal position number => exact legible
  | quantity position => trivial
  | unary position operator operand ih => exact ih legible
  | binary position operator left right leftIh rightIh =>
      exact ⟨leftIh legible.1, rightIh legible.2⟩
  | choice position condition consequent alternate firstIh secondIh thirdIh =>
      exact ⟨firstIh legible.1, secondIh legible.2.1, thirdIh legible.2.2⟩
  | foreign leaf => trivial

theorem Legible.of_within (legible : formula.Legible) (within : part.Within formula) :
    part.Legible := by
  induction within with
  | refl => exact legible
  | @tail outer inner above member ih =>
      revert inner
      cases outer <;> simp_all [Legible, children]

theorem Defect.written_iff (defect : Defect quantity part failure) (legible : part.Legible)
    (short : Text.Narrow quantity) :
    ¬ failure.Written ↔
      failure.mishap ≠ .general ∧ ∃ leaf, (Formula.foreign leaf).Within part := by
  rw [← not_genuine_iff]
  have node (special : failure.mishap ≠ .general) (same : failure.Written ↔ part.Rendered) :
      ¬ failure.Written ↔ failure.mishap ≠ .general ∧ ¬ part.Genuine := by
    rw [same]
    exact ⟨fun stuck => ⟨special, fun genuine => stuck ⟨genuine, legible.narrow⟩⟩,
      fun strange rendered => strange.2 rendered.1⟩
  cases defect with
  | quantity outside => exact iff_of_false (not_not_intro short) fun strange => strange.2 trivial
  | operator leftValue rightValue =>
      exact iff_of_false (not_not_intro trivial) fun strange => strange.1 rfl
  | foreign =>
      exact iff_of_false (not_not_intro legible) fun strange => strange.1 rfl
  | _ => exact node nofun Iff.rfl

theorem answer_of_ok {value : Int} (source : Option String)
    (evaluated : formula.evaluate quantity = .ok value) :
    formula.answer source quantity = .ok (.value value) := by
  rw [answer, evaluateReported_of_ok source evaluated]
  rfl

theorem answer_of_told {message : String} {details : Details} (source : Option String)
    (failed : formula.evaluate quantity = .error failure)
    (told : failure.account = .ok (message, details)) :
    formula.answer source quantity = .ok (.failure message failure.mishap.kind) := by
  rw [answer, evaluateReported_of_error source failed told, ← Failure.kind_of_account told]
  rfl

theorem answer_of_untold {reason : Unwritable} (source : Option String)
    (failed : formula.evaluate quantity = .error failure)
    (untold : failure.account = .error reason) :
    formula.answer source quantity = .error reason := by
  rw [answer, evaluateReported_of_untold source failed untold]
  rfl

theorem answer_of_error (source : Option String)
    (failed : formula.evaluate quantity = .error failure) :
    (∃ reason, failure.account = .error reason ∧
        formula.answer source quantity = .error reason) ∨
      ∃ message, formula.answer source quantity = .ok (.failure message failure.mishap.kind) := by
  cases told : failure.account with
  | error reason => exact Or.inl ⟨reason, rfl, answer_of_untold source failed told⟩
  | ok account => exact Or.inr ⟨account.1, answer_of_told source failed told⟩

theorem answer_eq_error_of_not_written (source : Option String)
    (failed : formula.evaluate quantity = .error failure) (unwritten : ¬ failure.Written) :
    ∃ reason, formula.answer source quantity = .error reason := by
  rcases answer_of_error source failed with ⟨reason, -, escaped⟩ | ⟨message, answered⟩
  · exact ⟨reason, escaped⟩
  · cases told : failure.account with
    | ok account => exact absurd (failure.account_ok_iff.mp ⟨account, told⟩) unwritten
    | error reason => exact ⟨reason, answer_of_untold source failed told⟩

theorem Known.answered (known : formula.Known Writable) (source : Option String)
    (short : Text.Narrow quantity) :
    (∃ value, formula.answer source quantity = .ok (.value value)) ∨
      ∃ message, ∃ kind ∈ Mishap.arithmeticKinds,
        formula.answer source quantity = .ok (.failure message kind) := by
  rcases known.value_or_reported source short with ⟨value, returned⟩ | ⟨report, reported⟩
  · have evaluated := (evaluateReported_eq_value_iff source formula value).mp returned
    exact Or.inl ⟨value, answer_of_ok source evaluated⟩
  · obtain ⟨failure, failed, told⟩ := told_of_reported reported
    have kind := Mishap.kind_mem_arithmeticKinds (known.mishap_ne_general failed)
    exact Or.inr ⟨_, _, kind, answer_of_told source failed told⟩

end

def strayText : Foreign := ⟨"'leaf'", some "'leaf'", some "leaf"⟩

/-- A divisor that is zero without regard to the foreign leaf in it. -/
def skippedLeaf : Formula :=
  .binary 1 (.known (.numeric .quotient)) (.literal 0 (.int 1))
    (.binary 3 (.known (.logical .conjunction)) (.quantity 2) (.foreign strayText))

attribute [local instance] Writing.standard

end Formula

end PluralRule
