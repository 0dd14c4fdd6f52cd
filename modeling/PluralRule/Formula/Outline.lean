import PluralRule.Formula

/-!
Outlines: a formula shown over several lines, one node a line, each level
indented by two spaces. The parts of a choice stand under a label of their own.
A formula with an integer that is too long has no outline.
-/

namespace PluralRule.Formula

/-- Two spaces a level; a level below zero is not indented. -/
def margin (level : Int) : String := String.ofList (List.replicate (2 * level.toNat) ' ')

def outline [Writing] (level : Int) : Formula → Option String
  | .literal _ number => do
      let text ← number.written?
      some (margin level ++ "Number: " ++ text)
  | .quantity _ => some (margin level ++ "Variable: n")
  | .unary _ operator operand => do
      let inner ← outline (level + 1) operand
      some (margin level ++ "UnaryOp: " ++ operator.symbol ++ "\n" ++ inner)
  | .binary _ operator left right => do
      let before ← outline (level + 1) left
      let after ← outline (level + 1) right
      some (margin level ++ "BinaryOp: " ++ operator.symbol ++ "\n" ++ before ++ "\n" ++ after)
  | .choice _ condition consequent alternate => do
      let first ← outline (level + 2) condition
      let second ← outline (level + 2) consequent
      let third ← outline (level + 2) alternate
      some (margin level ++ "TernaryOp:\n" ++
        margin level ++ "  condition:\n" ++ first ++ "\n" ++
        margin level ++ "  consequent:\n" ++ second ++ "\n" ++
        margin level ++ "  alternate:\n" ++ third)
  | .foreign leaf => do
      let text ← leaf.shown
      some (margin level ++ "Unknown: " ++ text)

end PluralRule.Formula
