import PluralRule.Formula.Levels

/-!
What a token can do to a reading, said once. A token moves the reading on, ends
the formula, does not fit, or is a number without a literal; only a move that
goes one level deeper asks the limits. Main statements: these are all cases,
and a move enters and leaves as many levels as the nesting changes by.
-/

namespace PluralRule

open Formula (literalValue?)

/-- A token moves a reading on; the flag tells whether the move goes one level deeper. -/
inductive Move (token : Token) : Reading → Reading → Bool → Prop where
  | number {context : Context} {start : Int} {waiting : List Waiting} {value : Int}
      (spelled : token.kind = .number) (literal : literalValue? token.text = some value) :
      Move token (.operand context start waiting)
        (.operator context start waiting (.literal token.position (.int value))) false
  | quantity {context : Context} {start : Int} {waiting : List Waiting}
      (spelled : token.kind = .quantity) :
      Move token (.operand context start waiting)
        (.operator context start waiting (.quantity token.position)) false
  | opening {context : Context} {start : Int} {waiting : List Waiting}
      (spelled : token.kind = .opening) :
      Move token (.operand context start waiting) (.beginning (.group start waiting context)) true
  | sign {context : Context} {start : Int} {waiting : List Waiting}
      (spelled : token.kind = .minus) :
      Move token (.operand context start waiting)
        (.operand context start (.sign token.position :: waiting)) true
  | negation {context : Context} {start : Int} {waiting : List Waiting}
      (spelled : token.kind = .not) (admitted : Waiting.admitsNegation waiting = true) :
      Move token (.operand context start waiting)
        (.operand context start (.negation token.position :: waiting)) true
  | first {context : Context} {following : Reading} {deepens : Bool}
      (move : Move token (.operand context token.position []) following deepens) :
      Move token (.beginning context) following deepens
  | operation {context : Context} {start : Int} {waiting kept : List Waiting}
      {value left : Formula} {operation : Operation}
      (spelled : token.kind.operation? = some operation)
      (settled : Waiting.settle operation.strength waiting value = (kept, left)) :
      Move token (.operator context start waiting value)
        (.operand context start (.binary token.position operation left :: kept)) false
  | question {context : Context} {start : Int} {waiting : List Waiting} {value : Formula}
      (spelled : token.kind = .question) :
      Move token (.operator context start waiting value)
        (.beginning (.beforeColon start (Waiting.settleAll waiting value) context)) true
  | colon {context outer : Context} {start begun : Int} {waiting : List Waiting}
      {value condition consequent : Formula} (spelled : token.kind = .colon)
      (closed : context.close (Waiting.settleAll waiting value) =
        (.beforeColon begun condition outer, consequent)) :
      Move token (.operator context start waiting value)
        (.beginning (.afterColon begun condition consequent outer)) true
  | closing {context outer : Context} {start begun : Int} {waiting around : List Waiting}
      {value inner : Formula} (spelled : token.kind = .closing)
      (closed : context.close (Waiting.settleAll waiting value) =
        (.group begun around outer, inner)) :
      Move token (.operator context start waiting value) (.operator outer begun around inner) false

inductive Final (token : Token) : Reading → Formula → Prop where
  | finish {context : Context} {start : Int} {waiting : List Waiting} {value formula : Formula}
      (spelled : token.kind = .finish)
      (closed : context.close (Waiting.settleAll waiting value) = (.outermost, formula)) :
      Final token (.operator context start waiting value) formula

theorem Move.step_eq {token : Token} {reading following : Reading} {deepens : Bool}
    (move : Move token reading following deepens) (limits : Limits) :
    reading.step limits token =
      if deepens then Reading.deeper limits following else .next following := by
  induction move with
  | number spelled literal => simp [Reading.step, Reading.takeOperand, spelled, literal]
  | quantity spelled => simp [Reading.step, Reading.takeOperand, spelled]
  | opening spelled => simp [Reading.step, Reading.takeOperand, spelled]
  | sign spelled => simp [Reading.step, Reading.takeOperand, spelled]
  | negation spelled admitted => simp [Reading.step, Reading.takeOperand, spelled, admitted]
  | first move ih => exact ih
  | operation spelled settled => simp [Reading.step, Reading.takeOperator, spelled, settled]
  | question spelled =>
      simp [Reading.step, Reading.takeOperator, spelled, Token.Kind.operation?]
  | colon spelled closed =>
      simp [Reading.step, Reading.takeOperator, Reading.takeEnd, spelled, closed,
        Token.Kind.operation?]
  | closing spelled closed =>
      simp [Reading.step, Reading.takeOperator, Reading.takeEnd, spelled, closed,
        Token.Kind.operation?]

theorem Final.step_eq {token : Token} {reading : Reading} {formula : Formula}
    (final : Final token reading formula) (limits : Limits) :
    reading.step limits token = .accept formula := by
  cases final with
  | finish spelled closed =>
      simp [Reading.step, Reading.takeOperator, Reading.takeEnd, spelled, closed,
        Token.Kind.operation?]

namespace Reading

/-- The ways in which a token can stop a reading, none of which depends on the limits. -/
inductive Stops (token : Token) (reading : Reading) : Prop where
  | final (formula : Formula) (final : Final token reading formula)
  | blame (unfit : ∀ limits, reading.step limits token = .blame)
  | literal (expects : reading.expected = .operand)
      (overflows : ∀ limits, reading.step limits token = .fail (.literal token))

theorem operand_moves_or_stops (token : Token) (context : Context) (start : Int)
    (waiting : List Waiting) :
    (∃ following deepens, Move token (.operand context start waiting) following deepens) ∨
      Stops token (.operand context start waiting) := by
  cases kind : token.kind with
  | number =>
      cases literal : literalValue? token.text with
      | some value => exact Or.inl ⟨_, _, .number kind literal⟩
      | none =>
          refine Or.inr (.literal rfl fun limits => ?_)
          simp [step, takeOperand, kind, literal]
  | quantity => exact Or.inl ⟨_, _, .quantity kind⟩
  | opening => exact Or.inl ⟨_, _, .opening kind⟩
  | minus => exact Or.inl ⟨_, _, .sign kind⟩
  | not =>
      by_cases admitted : Waiting.admitsNegation waiting = true
      · exact Or.inl ⟨_, _, .negation kind admitted⟩
      · refine Or.inr (.blame fun limits => ?_)
        simp [step, takeOperand, kind, admitted]
  | _ => exact Or.inr (.blame fun limits => by simp [step, takeOperand, kind])

theorem end_moves_or_stops (token : Token) (context : Context) (start : Int)
    (waiting : List Waiting) (value : Formula) (apart : token.kind.operation? = none)
    (unasked : token.kind ≠ .question) :
    (∃ following deepens, Move token (.operator context start waiting value) following deepens) ∨
      Stops token (.operator context start waiting value) := by
  have ending (limits : Limits) : step limits token (.operator context start waiting value) =
      takeEnd limits context (Waiting.settleAll waiting value) token.kind := by
    simp [step, takeOperator, apart, unasked]
  -- Which token may follow depends on the innermost context that is still open.
  cases closed : context.close (Waiting.settleAll waiting value) with
  | mk around whole =>
      cases around with
      | outermost =>
          by_cases spelled : token.kind = .finish
          · exact Or.inr (.final whole (.finish spelled closed))
          · refine Or.inr (.blame fun limits => ?_)
            simp [ending, takeEnd, closed, spelled]
      | group begun kept outer =>
          by_cases spelled : token.kind = .closing
          · exact Or.inl ⟨_, _, .closing spelled closed⟩
          · refine Or.inr (.blame fun limits => ?_)
            simp [ending, takeEnd, closed, spelled]
      | beforeColon begun condition outer =>
          by_cases spelled : token.kind = .colon
          · exact Or.inl ⟨_, _, .colon spelled closed⟩
          · refine Or.inr (.blame fun limits => ?_)
            simp [ending, takeEnd, closed, spelled]
      | afterColon begun condition consequent outer =>
          refine Or.inr (.blame fun limits => ?_)
          simp [ending, takeEnd, closed]

theorem moves_or_stops (token : Token) (reading : Reading) :
    (∃ following deepens, Move token reading following deepens) ∨ Stops token reading := by
  cases reading with
  | beginning context =>
      rcases operand_moves_or_stops token context token.position [] with moves | stops
      · obtain ⟨following, deepens, move⟩ := moves
        exact Or.inl ⟨following, deepens, .first move⟩
      · cases stops with
        | final formula final => cases final
        | blame unfit => exact Or.inr (.blame unfit)
        | literal expects overflows => exact Or.inr (.literal expects overflows)
  | operand context start waiting => exact operand_moves_or_stops token context start waiting
  | operator context start waiting value =>
      cases spelled : token.kind.operation? with
      | some operation => exact Or.inl ⟨_, _, .operation spelled rfl⟩
      | none =>
          by_cases asked : token.kind = .question
          · exact Or.inl ⟨_, _, .question asked⟩
          · exact end_moves_or_stops token context start waiting value spelled asked

end Reading

namespace Waiting

theorem nestingOf_settle (strength : Nat) (waiting : List Waiting) (value : Formula) :
    nestingOf (settle strength waiting value).1 + released strength waiting =
      nestingOf waiting := by
  induction waiting generalizing value with
  | nil => rfl
  | cons first rest ih =>
      by_cases held : strength ≤ first.strength
      · have inner := ih (first.apply value)
        simp only [settle, released, if_pos held, nestingOf]
        omega
      · simp only [settle, released, if_neg held, Nat.add_zero]

theorem released_zero (waiting : List Waiting) : released 0 waiting = nestingOf waiting := by
  induction waiting with
  | nil => rfl
  | cons first rest ih => simp only [released, Nat.zero_le, if_true, ih, nestingOf]

end Waiting

namespace Context

theorem nesting_close (context : Context) (value : Formula) :
    (context.close value).1.nesting + context.released = context.nesting := by
  induction context generalizing value with
  | afterColon start condition consequent outer ih =>
      have inner := ih (.choice start condition consequent value)
      simp only [close, released, nesting]
      omega
  | _ => rfl

theorem nesting_of_close {context outer : Context} {value inner : Formula}
    (closed : context.close value = (outer, inner)) :
    outer.nesting + context.released = context.nesting := by
  rw [← nesting_close context value, closed]

end Context

theorem Move.levels {token : Token} {reading following : Reading} {deepens : Bool}
    (move : Move token reading following deepens) :
    reading.enters token = deepens ∧
      following.nesting + reading.leaves token = reading.nesting + deepens.toNat := by
  induction move with
  | number spelled literal => simp [Reading.enters, Reading.leaves, Reading.nesting, spelled]
  | quantity spelled => simp [Reading.enters, Reading.leaves, Reading.nesting, spelled]
  | opening spelled =>
      simp [Reading.enters, Reading.leaves, Reading.nesting, Context.nesting, spelled]
  | sign spelled =>
      constructor
      · simp [Reading.enters, spelled]
      · simp only [Reading.leaves, Reading.nesting, Waiting.nestingOf, Waiting.nesting,
          Bool.toNat_true]
        omega
  | negation spelled admitted =>
      constructor
      · simp [Reading.enters, spelled]
      · simp only [Reading.leaves, Reading.nesting, Waiting.nestingOf, Waiting.nesting,
          Bool.toNat_true]
        omega
  | first move ih => exact ih
  -- What an operator settles on its way are the levels that it leaves.
  | @operation context start waiting kept value left operation spelled settled =>
      have whole := Waiting.nestingOf_settle operation.strength waiting value
      rw [settled] at whole
      constructor
      · have apart : token.kind ≠ .question ∧ token.kind ≠ .colon := by
          constructor <;> intro same <;> simp [same, Token.Kind.operation?] at spelled
        simp [Reading.enters, apart]
      · simp only [Reading.leaves, spelled, Reading.nesting, Waiting.nestingOf, Waiting.nesting,
          Bool.toNat_false] at whole ⊢
        omega
  | question spelled =>
      constructor
      · simp [Reading.enters, spelled]
      · simp only [Reading.leaves, spelled, Token.Kind.operation?, Waiting.released_zero,
          Reading.nesting, Context.nesting, Bool.toNat_true]
        omega
  -- A colon and a parenthesis end the formula in front of them, choices included.
  | colon spelled closed =>
      have whole := Context.nesting_of_close closed
      constructor
      · simp [Reading.enters, spelled]
      · simp only [Reading.leaves, spelled, Token.Kind.operation?, Waiting.released_zero,
          Reading.nesting, Context.nesting, Bool.toNat_true] at whole ⊢
        omega
  | closing spelled closed =>
      have whole := Context.nesting_of_close closed
      constructor
      · simp [Reading.enters, spelled]
      · simp only [Reading.leaves, spelled, Token.Kind.operation?, Waiting.released_zero,
          Reading.nesting, Context.nesting, Bool.toNat_false] at whole ⊢
        omega

theorem Final.leaves_eq {token : Token} {reading : Reading} {formula : Formula}
    (final : Final token reading formula) : reading.leaves token = reading.nesting := by
  cases final with
  | finish spelled closed =>
      have whole := Context.nesting_of_close closed
      simp only [Reading.leaves, spelled, Token.Kind.operation?, Waiting.released_zero,
        Reading.nesting, Context.nesting] at whole ⊢
      omega

theorem Move.nesting_le_add {token : Token} {reading following : Reading} {deepens : Bool}
    (move : Move token reading following deepens) :
    following.nesting ≤ reading.nesting + deepens.toNat :=
  Nat.le.intro move.levels.2

theorem Move.nesting_le {token : Token} {reading following : Reading} {deepens : Bool}
    (move : Move token reading following deepens) :
    following.nesting ≤ reading.nesting + 1 :=
  Nat.le_trans move.nesting_le_add (Nat.add_le_add_left (Bool.toNat_le deepens) _)

theorem Move.nesting_pos {token : Token} {reading following : Reading} {deepens : Bool}
    (move : Move token reading following deepens) (deep : deepens = true) :
    1 ≤ following.nesting := by
  induction move with
  | number spelled literal => cases deep
  | quantity spelled => cases deep
  | opening spelled => exact Nat.le_add_left 1 _
  | sign spelled =>
      simp only [Reading.nesting, Waiting.nestingOf, Waiting.nesting]
      omega
  | negation spelled admitted =>
      simp only [Reading.nesting, Waiting.nestingOf, Waiting.nesting]
      omega
  | first move ih => exact ih deep
  | operation spelled settled => cases deep
  | question spelled => exact Nat.le_add_left 1 _
  | colon spelled closed => exact Nat.le_add_left 1 _
  | closing spelled closed => cases deep

end PluralRule
