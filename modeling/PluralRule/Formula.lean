import PluralRule.Number
import PluralRule.Operator

/-!
Formulas as trees. Every node knows its place in the text; equality of
formulas does not look at places. A value that is no formula at all may stand
where a node is expected, as a foreign leaf.
-/

namespace PluralRule

/-- A value that stands in a formula and is no node of one, by what is asked of it:
which values it is equal to, and its texts, which it may not have. Values that are
equal can have different texts. -/
structure Foreign where
  identity : String
  /-- The text inside messages. -/
  quoted : Option String
  /-- The text inside outlines. -/
  shown : Option String
  deriving DecidableEq, Repr

inductive Formula where
  | literal (position : Int) (number : Number)
  | quantity (position : Int)
  | unary (position : Int) (operator : UnaryOperator) (operand : Formula)
  | binary (position : Int) (operator : BinaryOperator) (left right : Formula)
  /-- The consequent where the condition is not zero, the alternate where it is. -/
  | choice (position : Int) (condition consequent alternate : Formula)
  | foreign (leaf : Foreign)
  deriving DecidableEq, Repr

namespace Formula

/-- A foreign leaf has no place. -/
def position? : Formula → Option Int
  | .literal position _ => some position
  | .quantity position => some position
  | .unary position _ _ => some position
  | .binary position _ _ _ => some position
  | .choice position _ _ _ => some position
  | .foreign _ => none

def symbol? : Formula → Option String
  | .unary _ operator _ => some operator.symbol
  | .binary _ operator _ _ => some operator.symbol
  | _ => none

def children : Formula → List Formula
  | .unary _ _ operand => [operand]
  | .binary _ _ left right => [left, right]
  | .choice _ condition consequent alternate => [condition, consequent, alternate]
  | _ => []

def mapPosition (move : Int → Int) : Formula → Formula
  | .literal position number => .literal (move position) number
  | .quantity position => .quantity (move position)
  | .unary position operator operand =>
      .unary (move position) operator (operand.mapPosition move)
  | .binary position operator left right =>
      .binary (move position) operator (left.mapPosition move) (right.mapPosition move)
  | .choice position condition consequent alternate =>
      .choice (move position) (condition.mapPosition move) (consequent.mapPosition move)
        (alternate.mapPosition move)
  | .foreign leaf => .foreign leaf

def unplaced (formula : Formula) : Formula := formula.mapPosition fun _ => 0

/-- One shape, the same operators and the same leaves, at any places. -/
def Identical (left right : Formula) : Prop := left.unplaced = right.unplaced

/-- What equality looks at: no places, no difference between a truth value and its
integer, and of a foreign leaf only what it is equal to. -/
def essence : Formula → Formula
  | .literal _ number => .literal 0 (.int number.value)
  | .quantity _ => .quantity 0
  | .unary _ operator operand => .unary 0 operator operand.essence
  | .binary _ operator left right => .binary 0 operator left.essence right.essence
  | .choice _ condition consequent alternate =>
      .choice 0 condition.essence consequent.essence alternate.essence
  | .foreign leaf => .foreign ⟨leaf.identity, none, none⟩

def Same (left right : Formula) : Prop := left.essence = right.essence

instance (left right : Formula) : Decidable (Identical left right) :=
  inferInstanceAs (Decidable (left.unplaced = right.unplaced))

instance (left right : Formula) : Decidable (Same left right) :=
  inferInstanceAs (Decidable (left.essence = right.essence))

theorem mapPosition_mapPosition (formula : Formula) (first second : Int → Int) :
    (formula.mapPosition first).mapPosition second =
      formula.mapPosition (second ∘ first) := by
  induction formula with
  | literal position number => rfl
  | quantity position => rfl
  | unary position operator operand ih => simp [mapPosition, ih]
  | binary position operator left right leftIh rightIh =>
      simp [mapPosition, leftIh, rightIh]
  | choice position condition consequent alternate conditionIh consequentIh alternateIh =>
      simp [mapPosition, conditionIh, consequentIh, alternateIh]
  | foreign leaf => rfl

theorem essence_mapPosition (formula : Formula) (move : Int → Int) :
    (formula.mapPosition move).essence = formula.essence := by
  induction formula with
  | literal position number => rfl
  | quantity position => rfl
  | unary position operator operand ih => simp only [mapPosition, essence, ih]
  | binary position operator left right leftIh rightIh =>
      simp only [mapPosition, essence, leftIh, rightIh]
  | choice position condition consequent alternate conditionIh consequentIh alternateIh =>
      simp only [mapPosition, essence, conditionIh, consequentIh, alternateIh]
  | foreign leaf => rfl

/-- Formulas that differ in places alone are equal. -/
theorem Identical.same {left right : Formula} (identical : Identical left right) :
    Same left right := by
  rw [Same, ← left.essence_mapPosition fun _ => 0, ← right.essence_mapPosition fun _ => 0]
  exact congrArg essence identical

theorem Identical.refl (formula : Formula) : Identical formula formula := rfl

theorem Identical.symm {left right : Formula} (identical : Identical left right) :
    Identical right left := Eq.symm identical

theorem Identical.trans {left middle right : Formula} (first : Identical left middle)
    (second : Identical middle right) : Identical left right := Eq.trans first second

theorem Same.refl (formula : Formula) : Same formula formula := rfl

theorem Same.symm {left right : Formula} (same : Same left right) : Same right left :=
  Eq.symm same

theorem Same.trans {left middle right : Formula} (first : Same left middle)
    (second : Same middle right) : Same left right := Eq.trans first second

theorem Identical.unary {first second : Formula} (identical : Identical first second)
    (left right : Int) (operator : UnaryOperator) :
    Identical (.unary left operator first) (.unary right operator second) := by
  simp only [Identical, unplaced, mapPosition] at identical ⊢
  rw [identical]

theorem Identical.binary {first second third fourth : Formula} (identical : Identical first second)
    (alike : Identical third fourth) (left right : Int) (operator : BinaryOperator) :
    Identical (.binary left operator first third) (.binary right operator second fourth) := by
  simp only [Identical, unplaced, mapPosition] at identical alike ⊢
  rw [identical, alike]

theorem Identical.choice {first second third fourth fifth sixth : Formula}
    (identical : Identical first second) (alike : Identical third fourth)
    (equal : Identical fifth sixth) (left right : Int) :
    Identical (.choice left first third fifth) (.choice right second fourth sixth) := by
  simp only [Identical, unplaced, mapPosition] at identical alike equal ⊢
  rw [identical, alike, equal]

end Formula

end PluralRule
