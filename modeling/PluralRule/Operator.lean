/-!
Operators of formulas. Thirteen operations join two operands and two operators
stand before one; a tree that is built by hand may hold any other symbol, which
is kept apart as unknown.
-/

namespace PluralRule

inductive Connective where
  | conjunction
  | disjunction
  deriving DecidableEq, Repr

inductive Comparison where
  | equal
  | notEqual
  | less
  | atMost
  | greater
  | atLeast
  deriving DecidableEq, Repr

inductive Arithmetic where
  | sum
  | difference
  | product
  | quotient
  | remainder
  deriving DecidableEq, Repr

inductive Operation where
  | logical (connective : Connective)
  | relational (comparison : Comparison)
  | numeric (arithmetic : Arithmetic)
  deriving DecidableEq, Repr

def Connective.symbol : Connective → String
  | .conjunction => "&&"
  | .disjunction => "||"

def Comparison.symbol : Comparison → String
  | .equal => "=="
  | .notEqual => "!="
  | .less => "<"
  | .atMost => "<="
  | .greater => ">"
  | .atLeast => ">="

def Arithmetic.symbol : Arithmetic → String
  | .sum => "+"
  | .difference => "-"
  | .product => "*"
  | .quotient => "/"
  | .remainder => "%"

namespace Operation

def symbol : Operation → String
  | .logical connective => connective.symbol
  | .relational comparison => comparison.symbol
  | .numeric arithmetic => arithmetic.symbol

def ofSymbol? : String → Option Operation
  | "&&" => some (.logical .conjunction)
  | "||" => some (.logical .disjunction)
  | "==" => some (.relational .equal)
  | "!=" => some (.relational .notEqual)
  | "<" => some (.relational .less)
  | "<=" => some (.relational .atMost)
  | ">" => some (.relational .greater)
  | ">=" => some (.relational .atLeast)
  | "+" => some (.numeric .sum)
  | "-" => some (.numeric .difference)
  | "*" => some (.numeric .product)
  | "/" => some (.numeric .quotient)
  | "%" => some (.numeric .remainder)
  | _ => none

theorem ofSymbol?_symbol (operation : Operation) :
    ofSymbol? operation.symbol = some operation := by
  cases operation with
  | logical connective => cases connective <;> rfl
  | relational comparison => cases comparison <;> rfl
  | numeric arithmetic => cases arithmetic <;> rfl

/-- How tightly an operation holds its operands: the larger number holds
tighter. All comparisons share one strength. -/
def strength : Operation → Nat
  | .logical .disjunction => 1
  | .logical .conjunction => 2
  | .relational _ => 3
  | .numeric .sum | .numeric .difference => 5
  | .numeric _ => 6

end Operation

/-- Negation holds its operand looser than arithmetic and tighter than comparisons do. -/
def negationStrength : Nat := 4

def signStrength : Nat := 7

inductive BinaryOperator where
  | known (operation : Operation)
  | unknown (symbol : String) (strange : Operation.ofSymbol? symbol = none)
  deriving DecidableEq, Repr

inductive UnaryOperator where
  | negation
  | sign
  | unknown (symbol : String) (strange : symbol ≠ "!" ∧ symbol ≠ "-")
  deriving DecidableEq, Repr

namespace BinaryOperator

def symbol : BinaryOperator → String
  | .known operation => operation.symbol
  | .unknown symbol _ => symbol

def ofSymbol (symbol : String) : BinaryOperator :=
  match found : Operation.ofSymbol? symbol with
  | some operation => .known operation
  | none => .unknown symbol found

end BinaryOperator

namespace UnaryOperator

def symbol : UnaryOperator → String
  | .negation => "!"
  | .sign => "-"
  | .unknown symbol _ => symbol

def ofSymbol (symbol : String) : UnaryOperator :=
  if negation : symbol = "!" then .negation
  else if sign : symbol = "-" then .sign
  else .unknown symbol ⟨negation, sign⟩

end UnaryOperator

end PluralRule
