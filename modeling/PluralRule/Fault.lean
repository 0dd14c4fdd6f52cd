import PluralRule.Report
import PluralRule.Token.Scan

/-!
Faults: the reasons why a text is no formula, and the report on each.
-/

namespace PluralRule

/-- What the grammar asks for at a place. -/
inductive Expectation where
  | operand
  | colon
  | closing
  | finish
  deriving DecidableEq, Repr

inductive Fault where
  | lexical (position : Int) (obstacle : Token.Obstacle)
  | unexpected (expected : Expectation) (found : Token)
  | literal (token : Token)
  | limit (breach : Breach)
  deriving DecidableEq, Repr

def Expectation.wording : Expectation → String
  | .operand => "expression"
  | .colon => "':' in ternary expression"
  | .closing => "')' after expression"
  | .finish => "end of expression"

def Token.Obstacle.wording : Token.Obstacle → String
  | .half character =>
      let text := String.ofList [character]
      "Unexpected '" ++ text ++ "'. Did you mean '" ++ text ++ text ++ "'?"
  | .stray character => "Unexpected character: '" ++ String.ofList [character] ++ "'"
  | .word characters =>
      "Unexpected identifier: '" ++ String.ofList characters ++
        "'. Only 'n' may be used as a variable"

/-- A breached limit is reported with its numbers, which have to be written for it. -/
def Fault.report [Writing] (source : String) : Fault → Option Report
  | .lexical position obstacle => some ⟨obstacle.wording, some position, some source, .lexical⟩
  | .unexpected expected found =>
      some ⟨"Expected " ++ expected.wording ++ " but found " ++ found.described,
        some found.position, some source,
        .unexpected (some expected.wording) (some found.described)⟩
  | .literal token => some (.literalOverflow token.text (some token.position) (some source))
  | .limit breach => Report.ofBreach breach

end PluralRule
