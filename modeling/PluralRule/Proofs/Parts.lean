import Mathlib.Logic.Relation
import PluralRule.Proofs.Known

/-!
The parts of a formula: the formula itself, its children and their parts. Main
statements: what holds of a formula whenever it holds of its children holds of
all formulas, the parts of a known formula are known, and a formula is not genuine
exactly when one of its parts is a foreign leaf.
-/

namespace PluralRule.Formula

/-- A property holds of every formula if a formula has it whenever its children do. -/
@[elab_as_elim]
theorem induction_on_children {motive : Formula → Prop}
    (node : ∀ formula, (∀ child ∈ formula.children, motive child) → motive formula)
    (formula : Formula) : motive formula := by
  induction formula with
  | literal position number => exact node _ (by simp [children])
  | quantity position => exact node _ (by simp [children])
  | unary position operator operand ih => exact node _ (by simpa [children] using ih)
  | binary position operator left right leftIh rightIh =>
      exact node _ (by simpa [children] using ⟨leftIh, rightIh⟩)
  | choice position condition consequent alternate firstIh secondIh thirdIh =>
      exact node _ (by simpa [children] using ⟨firstIh, secondIh, thirdIh⟩)
  | foreign leaf => exact node _ (by simp [children])

/-- The part stands somewhere in the formula. -/
def Within (part whole : Formula) : Prop :=
  Relation.ReflTransGen (fun outer inner => inner ∈ outer.children) whole part

variable {formula part : Formula}

theorem Known.of_mem_children {admits : Number → Prop} {child : Formula}
    (known : formula.Known admits)
    (member : child ∈ formula.children) : child.Known admits := by
  cases formula with
  | unary position operator operand =>
      rw [List.mem_singleton.mp member]
      exact known.2
  | binary position operator left right =>
      rcases List.mem_cons.mp member with rfl | last
      · exact known.2.1
      · rw [List.mem_singleton.mp last]
        exact known.2.2
  | choice position condition consequent alternate =>
      rcases List.mem_cons.mp member with rfl | branch
      · exact known.1
      · rcases List.mem_cons.mp branch with rfl | last
        · exact known.2.1
        · rw [List.mem_singleton.mp last]
          exact known.2.2
  | _ => cases member

theorem Known.of_within {admits : Number → Prop} (known : formula.Known admits)
    (within : part.Within formula) : part.Known admits := by
  induction within with
  | refl => exact known
  | tail outer member ih => exact ih.of_mem_children member

theorem genuine_iff_children (formula : Formula) :
    formula.Genuine ↔
      (∀ leaf, formula ≠ .foreign leaf) ∧ ∀ child ∈ formula.children, child.Genuine := by
  cases formula <;> simp [Genuine, children]

theorem Genuine.of_within (genuine : formula.Genuine) (within : part.Within formula) :
    part.Genuine := by
  induction within with
  | refl => exact genuine
  | tail outer member ih => exact ((genuine_iff_children _).mp ih).2 _ member

theorem not_genuine_iff (formula : Formula) :
    ¬ formula.Genuine ↔ ∃ leaf, (foreign leaf).Within formula := by
  constructor
  · intro strange
    induction formula using induction_on_children with
    | node formula ih =>
        rw [genuine_iff_children] at strange
        by_cases alone : ∃ leaf, formula = .foreign leaf
        · obtain ⟨leaf, rfl⟩ := alone
          exact ⟨leaf, .refl⟩
        · have broken : ∃ child ∈ formula.children, ¬ child.Genuine := by
            simpa using fun shaped => strange ⟨fun leaf same => alone ⟨leaf, same⟩, shaped⟩
          obtain ⟨child, member, inner⟩ := broken
          obtain ⟨leaf, within⟩ := ih child member inner
          exact ⟨leaf, .head member within⟩
  · rintro ⟨leaf, within⟩ genuine
    exact genuine.of_within within

theorem Narrow.of_mem_children [Writing] {child : Formula} (narrow : formula.Narrow)
    (member : child ∈ formula.children) : child.Narrow := by
  revert child
  cases formula <;> simp_all [Narrow, children]

theorem Narrow.of_within [Writing] (narrow : formula.Narrow) (within : part.Within formula) :
    part.Narrow := by
  induction within with
  | refl => exact narrow
  | tail outer member ih => exact ih.of_mem_children member

end PluralRule.Formula
