import PluralRule.Proofs.Blank
import PluralRule.Proofs.Evaluation.Answers
import PluralRule.Proofs.Evaluation.Compositional
import PluralRule.Selector

/-!
What making a selector and selecting with it come to. A selector is made of a trimmed
text with its tree and of a positive number of forms. Main statement: selecting at any
value hands out an index, fails, leaves the range or is refused, each with the event
that belongs to it, and an integer is refused only where the failure of the formula
quotes an integer that is too long to be written.
-/

namespace PluralRule

def Value.Countless (count : Value) : Prop := ∀ number, count = .int number → number < 1

namespace Selector

/-- What the text of a formula is read as; no text is the quantity itself. -/
inductive Reads (limits : Limits) : String → Except Fault Formula → Prop where
  | empty : Reads limits "" (.ok (.quantity 0))
  | filled {text : String} (visible : text ≠ "") :
      Reads limits text (Formula.ofSource limits text)

structure Made (formula : String) (count : Value) (tree : Formula) (selector : Selector) :
    Prop where
  formula_eq : selector.formula = formula
  count_eq : count = .int selector.count
  positive : 1 ≤ selector.count
  tree_eq : selector.tree = tree

theorem Reads.known {limits : Limits} {text : String} {tree : Formula}
    (reads : Reads limits text (.ok tree)) : tree.Known Formula.Writable := by
  generalize read : (Except.ok tree : Except Fault Formula) = outcome at reads
  cases reads with
  | empty =>
      cases read
      trivial
  | filled visible => exact Formula.known_of_ofSource read.symm

variable {formula : String} {count : Value} {tree : Formula} {selector : Selector}

theorem build_cases (formula : String) (count : Value) (tree : Formula) :
    (∃ selector, build formula count tree = .ok selector ∧ Made formula count tree selector) ∨
      (build formula count tree = .error (.count count) ∧ count.Countless) := by
  unfold build
  split
  · next number positive =>
      obtain ⟨counted, least⟩ := (Value.positive?_eq_some_iff count number).mp positive
      exact Or.inl ⟨_, rfl, rfl, counted, least, rfl⟩
  · next nothing =>
      refine Or.inr ⟨rfl, fun number counted => Int.not_le.mp fun least => ?_⟩
      have found := (Value.positive?_eq_some_iff count number).mpr ⟨counted, least⟩
      rw [nothing] at found
      cases found

theorem compile_of_read {limits : Limits} {number : Int} (positive : 1 ≤ number)
    (read : treeOf limits (Text.trimmed formula) = .ok tree) :
    ∃ selector, compile limits formula (.int number) =
        ⟨.ok selector, [.compiled (Text.trimmed formula) number]⟩ ∧
      Made (Text.trimmed formula) (.int number) tree selector := by
  rcases build_cases (Text.trimmed formula) (.int number) tree with
    ⟨selector, built, made⟩ | ⟨-, countless⟩
  · refine ⟨selector, ?_, made⟩
    simp only [compile, read, built, Value.int.inj made.count_eq.symm]
  · exact absurd (countless number rfl) (Int.not_lt.mpr positive)

section

variable [Writing]

/-- The formula fails at the number, and its report would show an integer that is too long. -/
def Untold (selector : Selector) (number : Int) : Prop :=
  ∃ failure, selector.tree.evaluate number = .error failure ∧ ¬ failure.Written

/-- What selecting comes to, and what it records. -/
inductive Selected (selector : Selector) :
    Value → Except Refusal (Option Int) → List Event → Prop where
  | index {number index : Int} (answered : selector.evaluate (.int number) = .ok (.value index))
      (inside : 0 ≤ index ∧ index < selector.count) :
      Selected selector (.int number) (.ok (some index)) []
  | failed {number : Int} {message kind : String}
      (answered : selector.evaluate (.int number) = .ok (.failure message kind)) :
      Selected selector (.int number) (.ok none)
        [.failed selector.formula number message kind]
  | outOfRange {number index : Int}
      (answered : selector.evaluate (.int number) = .ok (.value index))
      (outside : ¬ (0 ≤ index ∧ index < selector.count)) :
      Selected selector (.int number) (.ok none)
        [.outOfRange selector.formula number index selector.count]
  | untold {number : Int} (untold : selector.Untold number) :
      Selected selector (.int number) (.error (.unwritable .wide)) []
  | refused {quantity : Value} (strange : ∀ number, quantity ≠ .int number) :
      Selected selector quantity (.error (.quantity quantity)) []

theorem evaluate_eq_answer (selector : Selector) (number : Int) :
    selector.evaluate (.int number) =
      (selector.tree.answer (some selector.formula) number).mapError .unwritable := rfl

theorem select_eq_some_iff (selector : Selector) (quantity : Value) (index : Int) :
    (selector.select quantity).result = .ok (some index) ↔
      selector.evaluate quantity = .ok (.value index) ∧ 0 ≤ index ∧ index < selector.count := by
  simp only [select]
  cases given : quantity.asQuantity with
  | error refusal => simp [evaluate, Formula.answerTo, given, bind, Except.bind]
  | ok number =>
      cases selector.evaluate quantity with
      | error refusal => simp
      | ok answer =>
          cases answer with
          | failure message kind => simp [chosen]
          | value found =>
              by_cases inside : 0 ≤ found ∧ found < selector.count
              · simp only [chosen, if_pos inside, Except.ok.injEq, Option.some.injEq,
                  Answer.value.injEq]
                exact ⟨fun same => ⟨same, same ▸ inside⟩, And.left⟩
              · simp only [chosen, if_neg inside, Except.ok.injEq, reduceCtorEq,
                  Answer.value.injEq, false_iff]
                rintro ⟨rfl, range⟩
                exact inside range

end

end Selector

end PluralRule
