import PluralRule.Fault
import PluralRule.Formula
import PluralRule.Formula.Literal

/-!
Readings: how far the reading of a formula has come. Tokens are taken one by
one from the left; what is open is kept on two stacks, the operators that wait
for their right operand and the formulas that the one being read stands in.
Operators bind by their strength and equal strengths to the left. Negation is
weaker than arithmetic, and a choice is weaker than everything else.
-/

namespace PluralRule

open Formula (literalValue?)

/-- An operator that waits for its right operand. -/
inductive Waiting where
  | negation (position : Int)
  | sign (position : Int)
  | binary (position : Int) (operation : Operation) (left : Formula)
  deriving DecidableEq, Repr

/-- Where the formula that is being read stands. The number is the place at
which the enclosing formula begins. -/
inductive Context where
  | outermost
  | group (start : Int) (waiting : List Waiting) (outer : Context)
  | beforeColon (start : Int) (condition : Formula) (outer : Context)
  | afterColon (start : Int) (condition consequent : Formula) (outer : Context)
  deriving DecidableEq, Repr

/-- A formula has yet to begin, an operand is missing, or an operand has just been read. -/
inductive Reading where
  | beginning (context : Context)
  | operand (context : Context) (start : Int) (waiting : List Waiting)
  | operator (context : Context) (start : Int) (waiting : List Waiting) (value : Formula)
  deriving DecidableEq, Repr

namespace Waiting

def strength : Waiting → Nat
  | .negation _ => negationStrength
  | .sign _ => signStrength
  | .binary _ operation _ => operation.strength

def apply : Waiting → Formula → Formula
  | .negation position, value => .unary position .negation value
  | .sign position, value => .unary position .sign value
  | .binary position operation left, value => .binary position (.known operation) left value

def nesting : Waiting → Nat
  | .negation _ => 1
  | .sign _ => 1
  | .binary .. => 0

def nestingOf : List Waiting → Nat
  | [] => 0
  | first :: rest => first.nesting + nestingOf rest

/-- Gives a value to the operators that hold it at least as tightly as the strength. -/
def settle (strength : Nat) : List Waiting → Formula → List Waiting × Formula
  | [], value => ([], value)
  | first :: rest, value =>
      if strength ≤ first.strength then settle strength rest (first.apply value)
      else (first :: rest, value)

def settleAll (waiting : List Waiting) (value : Formula) : Formula :=
  (settle 0 waiting value).2

/-- A negation may begin an operand unless the operand is held tighter than by negation. -/
def admitsNegation : List Waiting → Bool
  | [] => true
  | first :: _ => first.strength ≤ negationStrength

end Waiting

namespace Context

def nesting : Context → Nat
  | .outermost => 0
  | .group _ waiting outer => outer.nesting + Waiting.nestingOf waiting + 1
  | .beforeColon _ _ outer => outer.nesting + 1
  | .afterColon _ _ _ outer => outer.nesting + 1

/-- A finished formula finishes every choice whose alternate it is. -/
def close : Context → Formula → Context × Formula
  | .afterColon start condition consequent outer, value =>
      outer.close (.choice start condition consequent value)
  | context, value => (context, value)

def awaits : Context → Expectation
  | .outermost => .finish
  | .group .. => .closing
  | .beforeColon .. => .colon
  | .afterColon _ _ _ outer => outer.awaits

end Context

inductive Step where
  | next (reading : Reading)
  | accept (formula : Formula)
  /-- The token does not fit and is not taken. -/
  | blame
  /-- The token fits and is taken, and something else is wrong with it. -/
  | fail (fault : Fault)
  deriving DecidableEq, Repr

namespace Reading

def initial : Reading := .beginning .outermost

def nesting : Reading → Nat
  | .beginning context => context.nesting
  | .operand context _ waiting => context.nesting + Waiting.nestingOf waiting
  | .operator context _ waiting _ => context.nesting + Waiting.nestingOf waiting

def expected : Reading → Expectation
  | .beginning _ => .operand
  | .operand .. => .operand
  | .operator context _ _ _ => context.awaits

def deeper (limits : Limits) (reading : Reading) : Step :=
  match limits.check .depth reading.nesting with
  | .ok () => .next reading
  | .error breach => .fail (.limit breach)

def takeOperand (limits : Limits) (context : Context) (start : Int) (waiting : List Waiting)
    (token : Token) : Step :=
  match token.kind with
  | .number =>
      match literalValue? token.text with
      | some value => .next (.operator context start waiting (.literal token.position (.int value)))
      | none => .fail (.literal token)
  | .quantity => .next (.operator context start waiting (.quantity token.position))
  | .opening => deeper limits (.beginning (.group start waiting context))
  | .minus => deeper limits (.operand context start (.sign token.position :: waiting))
  | .not =>
      if Waiting.admitsNegation waiting then
        deeper limits (.operand context start (.negation token.position :: waiting))
      else .blame
  | _ => .blame

def takeEnd (limits : Limits) (context : Context) (value : Formula) (kind : Token.Kind) : Step :=
  match context.close value, kind with
  | (.beforeColon start condition outer, consequent), .colon =>
      deeper limits (.beginning (.afterColon start condition consequent outer))
  | (.group start waiting outer, inner), .closing => .next (.operator outer start waiting inner)
  | (.outermost, formula), .finish => .accept formula
  | _, _ => .blame

def takeOperator (limits : Limits) (context : Context) (start : Int) (waiting : List Waiting)
    (value : Formula) (token : Token) : Step :=
  match token.kind.operation? with
  | some operation =>
      let settled := Waiting.settle operation.strength waiting value
      .next (.operand context start (.binary token.position operation settled.2 :: settled.1))
  | none =>
      let whole := Waiting.settleAll waiting value
      if token.kind = .question then deeper limits (.beginning (.beforeColon start whole context))
      else takeEnd limits context whole token.kind

def step (limits : Limits) (token : Token) : Reading → Step
  | .beginning context => takeOperand limits context token.position [] token
  | .operand context start waiting => takeOperand limits context start waiting token
  | .operator context start waiting value =>
      takeOperator limits context start waiting value token

/-- Reads on through a list of tokens: the formula or the fault, and the tokens
that are left. The end of the formula is not taken, and neither is a token that
does not fit. A list that stops without an end is cut short where it stops. -/
def run (limits : Limits) : Reading → List Token → Except Fault Formula × List Token
  | reading, [] => (.error (.unexpected reading.expected (Token.finish 0)), [])
  | reading, token :: rest =>
      match reading.step limits token with
      | .next following => run limits following rest
      | .accept formula => (.ok formula, token :: rest)
      | .blame => (.error (.unexpected reading.expected token), token :: rest)
      | .fail fault => (.error fault, rest)

theorem run_suffix (limits : Limits) (reading : Reading) (tokens : List Token) :
    (run limits reading tokens).2 <:+ tokens := by
  induction tokens generalizing reading with
  | nil => simp [run]
  | cons token rest ih =>
      simp only [run]
      split
      · exact (ih _).trans (List.suffix_cons token rest)
      · exact List.suffix_refl _
      · exact List.suffix_refl _
      · exact List.suffix_cons token rest

end Reading

end PluralRule
