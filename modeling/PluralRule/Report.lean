import PluralRule.Limits
import PluralRule.Text.Writing

/-!
Reports: what a user is told about a formula that cannot be read or evaluated.
A report has a message, a place in the formula where one is known, and the
details that belong to its kind.
-/

namespace PluralRule

inductive Mishap where
  | general
  | divisionByZero
  | moduloByZero
  | overflow
  deriving DecidableEq, Repr

inductive Details where
  | general
  | lexical
  | unexpected (expected found : Option String)
  | literal (literal : String)
  | limit (name : String) (limit actual : Int)
  | evaluation (mishap : Mishap) (operator subexpression : Option String)
  deriving DecidableEq, Repr

structure Report where
  message : String
  position : Option Int
  expression : Option String
  details : Details
  deriving DecidableEq, Repr

def Mishap.kind : Mishap → String
  | .general => "evaluation-error"
  | .divisionByZero => "division-by-zero"
  | .moduloByZero => "modulo-by-zero"
  | .overflow => "arithmetic-overflow"

def Details.kind : Details → String
  | .general => "expression-error"
  | .lexical => "lexical-error"
  | .unexpected .. => "syntax-error"
  | .literal _ => "literal-overflow"
  | .limit .. => "limit-exceeded"
  | .evaluation mishap .. => mishap.kind

/-- What a report says was found at its place. A literal that is no word is quoted as it stands. -/
def Details.found? : Details → Option String
  | .unexpected _ found => found
  | .literal text => some text
  | _ => none

namespace Report

def kind (report : Report) : String := report.details.kind

def literalOverflow (literal : String) (position : Option Int) (expression : Option String) :
    Report :=
  ⟨"Integer literal out of range: " ++ literal, position, expression, .literal literal⟩

def limitExceeded [Writing] (name : String) (limit actual : Int) : Option Report := do
  let limitText ← Text.written? limit
  let actualText ← Text.written? actual
  some ⟨"Limit exceeded: " ++ name ++ " (limit: " ++ limitText ++ ", actual: " ++ actualText ++ ")",
    none, none, .limit name limit actual⟩

def ofBreach [Writing] (breach : Breach) : Option Report :=
  limitExceeded breach.bound.name breach.limit breach.actual

def spaces (count : Int) : String := String.ofList (List.replicate count.toNat ' ')

def context (report : Report) : String :=
  match report.expression, report.position with
  | some expression, some position =>
      report.message ++ "\n  " ++ expression ++ "\n  " ++ spaces position ++ "^"
  | _, _ => report.message

end Report

end PluralRule
