import PluralRule.Formula.Reading

/-!
Levels of nesting, counted. A reader does not go by the nesting of a reading but
by a counter of the levels that are open: it counts up where a level is entered,
before the limit is asked, and down where one is left, and whatever stops the
reading leaves all levels that are still open.
-/

namespace PluralRule

/-- The levels that are left when a value is given to the operators that hold it
at least as tightly as the strength. -/
def Waiting.released (strength : Nat) : List Waiting → Nat
  | [] => 0
  | first :: rest =>
      if strength ≤ first.strength then first.nesting + released strength rest else 0

def Context.released : Context → Nat
  | .afterColon _ _ _ outer => 1 + outer.released
  | _ => 0

namespace Reading

def enters (token : Token) : Reading → Bool
  | .operator .. => token.kind = .question || token.kind = .colon
  | _ => token.kind = .opening || token.kind = .minus || token.kind = .not

/-- The levels that end where the token is taken. A colon or a parenthesis ends
the formula that stands in front of it as well. -/
def leaves (token : Token) : Reading → Nat
  | .operator context _ waiting _ =>
      match token.kind.operation? with
      | some operation => Waiting.released operation.strength waiting
      | none =>
          match token.kind with
          | .question => Waiting.released 0 waiting
          | .finish => Waiting.released 0 waiting + context.released
          | _ => Waiting.released 0 waiting + context.released + 1
  | _ => 0

def room (reading : Reading) : Limits := ⟨0, reading.nesting + 1, 0⟩

/-- Reads on by a counter of the open levels instead of by the nesting of the
reading; the last number is the counter when the reading is over. -/
def counted (limits : Limits) :
    Int → Reading → List Token → (Except Fault Formula × List Token) × Int
  | level, reading, [] =>
      ((.error (.unexpected reading.expected (Token.finish 0)), []), level - reading.nesting)
  | level, reading, token :: rest =>
      match reading.step reading.room token with
      | .next following =>
          let left := level - reading.leaves token
          if reading.enters token then
            match limits.check .depth (left + 1) with
            | .ok () => counted limits (left + 1) following rest
            | .error breach => ((.error (.limit breach), rest), left + 1 - following.nesting)
          else counted limits left following rest
      | .accept formula => ((.ok formula, token :: rest), level - reading.leaves token)
      | .blame =>
          ((.error (.unexpected reading.expected token), token :: rest), level - reading.nesting)
      | .fail fault => ((.error fault, rest), level - reading.nesting)

end Reading

end PluralRule
