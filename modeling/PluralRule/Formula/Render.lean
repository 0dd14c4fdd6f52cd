import PluralRule.Formula

/-!
Rendering: a formula written as text. Whatever is compound stands in
parentheses inside an operator, so the text can be read without knowing how
tightly operators bind. A formula with a foreign leaf or with an integer that is
too long has no text.
-/

namespace PluralRule

inductive Unwritable where
  | foreign (quoted : String)
  | wide
  deriving DecidableEq, Repr

def Foreign.complaint (quoted : String) : String := "Unknown AST node: " ++ quoted

def Unwritable.message [Writing] : Unwritable → String
  | .foreign quoted => Foreign.complaint quoted
  | .wide => Writing.refusal

def Unwritable.orWide : Option String → Except Unwritable String
  | some text => .ok text
  | none => .error .wide

namespace Formula

def parenthesized (enclosed : Bool) (text : String) : String :=
  if enclosed then "(" ++ text ++ ")" else text

/-- The text of a formula, `nested` when it is an operand. A negation gets
parentheses as an operand, the other operators on one operand do not need them. -/
def renderPart [Writing] (nested : Bool) : Formula → Except Unwritable String
  | .literal _ number => Unwritable.orWide number.written?
  | .quantity _ => .ok "n"
  | .unary _ operator operand => do
      let inner ← renderPart true operand
      pure (parenthesized (nested && operator = .negation) (operator.symbol ++ inner))
  | .binary _ operator left right => do
      let before ← renderPart true left
      let after ← renderPart true right
      pure (parenthesized nested (before ++ " " ++ operator.symbol ++ " " ++ after))
  | .choice _ condition consequent alternate => do
      let first ← renderPart true condition
      let second ← renderPart true consequent
      let third ← renderPart true alternate
      pure (parenthesized nested (first ++ " ? " ++ second ++ " : " ++ third))
  | .foreign leaf => do
      let quoted ← Unwritable.orWide leaf.quoted
      .error (.foreign quoted)

def render [Writing] (formula : Formula) : Except Unwritable String := renderPart false formula

/-- Every leaf is a literal or the quantity. -/
def Genuine : Formula → Prop
  | .literal .. => True
  | .quantity _ => True
  | .unary _ _ operand => operand.Genuine
  | .binary _ _ left right => left.Genuine ∧ right.Genuine
  | .choice _ condition consequent alternate =>
      condition.Genuine ∧ consequent.Genuine ∧ alternate.Genuine
  | .foreign _ => False

def Narrow [Writing] : Formula → Prop
  | .literal _ number => Text.Narrow number.value
  | .quantity _ => True
  | .unary _ _ operand => operand.Narrow
  | .binary _ _ left right => left.Narrow ∧ right.Narrow
  | .choice _ condition consequent alternate =>
      condition.Narrow ∧ consequent.Narrow ∧ alternate.Narrow
  | .foreign _ => True

def Rendered [Writing] (formula : Formula) : Prop := formula.Genuine ∧ formula.Narrow

section

variable [Writing]

theorem renderPart_ok_iff (formula : Formula) (nested : Bool) :
    (∃ text, renderPart nested formula = .ok text) ↔ formula.Rendered := by
  simp only [Rendered]
  induction formula generalizing nested with
  | literal position number =>
      rw [renderPart, Number.written?_eq]
      by_cases narrow : Text.Narrow number.value <;>
        simp [narrow, Genuine, Narrow, Unwritable.orWide]
  | quantity position => simp [renderPart, Genuine, Narrow]
  | unary position operator operand ih =>
      rw [Genuine, Narrow, ← ih true]
      cases inner : renderPart true operand <;>
        simp [renderPart, inner, bind, Except.bind, pure, Except.pure]
  | binary position operator left right leftIh rightIh =>
      rw [Genuine, Narrow, and_and_and_comm, ← leftIh true, ← rightIh true]
      cases before : renderPart true left <;> cases after : renderPart true right <;>
        simp [renderPart, before, after, bind, Except.bind, pure, Except.pure]
  | choice position condition consequent alternate firstIh secondIh thirdIh =>
      rw [Genuine, Narrow, and_and_and_comm, and_and_and_comm (a := consequent.Genuine),
        ← firstIh true, ← secondIh true, ← thirdIh true]
      cases first : renderPart true condition <;>
        cases second : renderPart true consequent <;>
        cases third : renderPart true alternate <;>
        simp [renderPart, first, second, third, bind, Except.bind, pure, Except.pure]
  | foreign leaf =>
      cases quoted : leaf.quoted <;>
        simp [renderPart, quoted, Genuine, Unwritable.orWide, bind, Except.bind]

theorem render_ok_iff (formula : Formula) :
    (∃ text, formula.render = .ok text) ↔ formula.Rendered :=
  renderPart_ok_iff formula false

end

end Formula

end PluralRule
