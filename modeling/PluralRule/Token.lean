import PluralRule.Operator

/-!
Tokens: the words of a formula, each with its kind, its text and its place.
The text is kept because reports quote it; the kind alone decides the grammar.
-/

namespace PluralRule

inductive Token.Kind where
  | number
  | quantity
  | plus
  | minus
  | star
  | slash
  | percent
  | less
  | atMost
  | greater
  | atLeast
  | equal
  | notEqual
  | and
  | or
  | not
  | question
  | colon
  | opening
  | closing
  | finish
  deriving DecidableEq, Repr

structure Token where
  kind : Token.Kind
  text : String
  position : Int
  deriving DecidableEq, Repr

namespace Token

def finish (position : Int) : Token := ⟨.finish, "", position⟩

def Kind.operation? : Kind → Option Operation
  | .plus => some (.numeric .sum)
  | .minus => some (.numeric .difference)
  | .star => some (.numeric .product)
  | .slash => some (.numeric .quotient)
  | .percent => some (.numeric .remainder)
  | .less => some (.relational .less)
  | .atMost => some (.relational .atMost)
  | .greater => some (.relational .greater)
  | .atLeast => some (.relational .atLeast)
  | .equal => some (.relational .equal)
  | .notEqual => some (.relational .notEqual)
  | .and => some (.logical .conjunction)
  | .or => some (.logical .disjunction)
  | _ => none

def described (token : Token) : String :=
  if token.kind = .finish then "end of expression" else "'" ++ token.text ++ "'"

end Token

end PluralRule
