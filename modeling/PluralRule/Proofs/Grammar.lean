import PluralRule.Formula.Measure
import PluralRule.Text.Decimal
import PluralRule.Token
import PluralRule.Word

/-!
The grammar of formulas over tokens, written down without regard to how tokens
are read. A phrase ties a list of tokens to the formula it builds, with the
nesting that taking it apart costs: one for each pair of parentheses, for each
operator before an operand and for each branch of a choice. Main statements:
phrases of a tight level are phrases of every looser one, and the nodes and
the nesting of a formula are bounded by its tokens.
-/

namespace PluralRule

inductive Level where
  | choice
  | disjunction
  | conjunction
  | comparison
  | negation
  | sum
  | product
  | sign
  | primary
  deriving DecidableEq, Repr

namespace Level

def tighter? : Level → Option Level
  | .choice => some .disjunction
  | .disjunction => some .conjunction
  | .conjunction => some .comparison
  | .comparison => some .negation
  | .negation => some .sum
  | .sum => some .product
  | .product => some .sign
  | .sign => some .primary
  | .primary => none

def joins? : Level → Token.Kind → Option Operation
  | .disjunction, .or => some (.logical .disjunction)
  | .conjunction, .and => some (.logical .conjunction)
  | .comparison, .equal => some (.relational .equal)
  | .comparison, .notEqual => some (.relational .notEqual)
  | .comparison, .less => some (.relational .less)
  | .comparison, .atMost => some (.relational .atMost)
  | .comparison, .greater => some (.relational .greater)
  | .comparison, .atLeast => some (.relational .atLeast)
  | .sum, .plus => some (.numeric .sum)
  | .sum, .minus => some (.numeric .difference)
  | .product, .star => some (.numeric .product)
  | .product, .slash => some (.numeric .quotient)
  | .product, .percent => some (.numeric .remainder)
  | _, _ => none

def rank : Level → Nat
  | .choice => 0
  | .disjunction => 1
  | .conjunction => 2
  | .comparison => 3
  | .negation => 4
  | .sum => 5
  | .product => 6
  | .sign => 7
  | .primary => 8

theorem eq_of_rank_eq (left right : Level) (same : left.rank = right.rank) : left = right := by
  cases left <;> cases right <;> simp_all [rank]

theorem rank_of_tighter? (level next : Level) (above : level.tighter? = some next) :
    next.rank = level.rank + 1 := by
  cases level <;> cases above <;> rfl

theorem tighter?_of_rank_lt (level tight : Level) (below : level.rank < tight.rank) :
    ∃ next, level.tighter? = some next := by
  cases level <;> cases tight <;> simp_all [rank, tighter?]

theorem rank_le_primary (level : Level) : level.rank ≤ primary.rank := by
  cases level <;> decide

end Level

namespace Operation

def level : Operation → Level
  | .logical .disjunction => .disjunction
  | .logical .conjunction => .conjunction
  | .relational _ => .comparison
  | .numeric .sum | .numeric .difference => .sum
  | .numeric _ => .product

theorem joins_level (operation : Operation) (kind : Token.Kind)
    (spelled : kind.operation? = some operation) :
    operation.level.joins? kind = some operation := by
  cases kind <;> cases spelled <;> rfl

/-- The right operand of an operation may be a phrase of the level of signs. -/
theorem tighter_level (operation : Operation) :
    ∃ next, operation.level.tighter? = some next ∧ next.rank ≤ Level.sign.rank := by
  cases operation with
  | logical connective => cases connective <;> exact ⟨_, rfl, by decide⟩
  | relational comparison => cases comparison <;> exact ⟨_, rfl, by decide⟩
  | numeric arithmetic => cases arithmetic <;> exact ⟨_, rfl, by decide⟩

end Operation

/-- The tokens derive the formula from the level. Operations that join fold to
the left, parentheses build no node, and the place of a choice is the place of
its first token. -/
inductive Phrase : Level → List Token → Formula → Nat → Prop where
  | tighter {level next : Level} {tokens : List Token} {formula : Formula} {nesting : Nat}
      (above : level.tighter? = some next) (part : Phrase next tokens formula nesting) :
      Phrase level tokens formula nesting
  | choice {first question colon : Token} {rest second third : List Token}
      {condition consequent alternate : Formula} {outer inner last : Nat}
      (asks : question.kind = .question) (divides : colon.kind = .colon)
      (conditionPart : Phrase .disjunction (first :: rest) condition outer)
      (consequentPart : Phrase .choice second consequent inner)
      (alternatePart : Phrase .choice third alternate last) :
      Phrase .choice ((first :: rest) ++ (question :: second ++ colon :: third))
        (.choice first.position condition consequent alternate)
        (max outer (max (1 + inner) (1 + last)))
  | joined {level next : Level} {token : Token} {operation : Operation}
      {before after : List Token} {left right : Formula} {outer inner : Nat}
      (joins : level.joins? token.kind = some operation) (above : level.tighter? = some next)
      (leftPart : Phrase level before left outer) (rightPart : Phrase next after right inner) :
      Phrase level (before ++ token :: after)
        (.binary token.position (.known operation) left right) (max outer inner)
  | negation {token : Token} {tokens : List Token} {operand : Formula} {nesting : Nat}
      (spelled : token.kind = .not) (part : Phrase .negation tokens operand nesting) :
      Phrase .negation (token :: tokens) (.unary token.position .negation operand) (1 + nesting)
  | sign {token : Token} {tokens : List Token} {operand : Formula} {nesting : Nat}
      (spelled : token.kind = .minus) (part : Phrase .sign tokens operand nesting) :
      Phrase .sign (token :: tokens) (.unary token.position .sign operand) (1 + nesting)
  | number {token : Token} {value : Nat}
      (spelled : token.kind = .number) (read : Text.natural? token.text.toList = some value)
      (small : (value : Int) ≤ Word.greatest) :
      Phrase .primary [token] (.literal token.position (.int value)) 0
  | quantity {token : Token} (spelled : token.kind = .quantity) :
      Phrase .primary [token] (.quantity token.position) 0
  | group {opening closing : Token} {tokens : List Token} {formula : Formula} {nesting : Nat}
      (opens : opening.kind = .opening) (closes : closing.kind = .closing)
      (part : Phrase .choice tokens formula nesting) :
      Phrase .primary (opening :: (tokens ++ [closing])) formula (1 + nesting)

def Spells (tokens : List Token) (formula : Formula) : Prop :=
  ∃ placed nesting, Phrase .choice tokens placed nesting ∧ placed.Identical formula

def Token.Plain (token : Token) : Prop :=
  token.kind ≠ .finish ∧
    (token.kind = .number → (Text.natural? token.text.toList).isSome = true)

instance (token : Token) : Decidable token.Plain :=
  inferInstanceAs (Decidable (token.kind ≠ .finish ∧
    (token.kind = .number → (Text.natural? token.text.toList).isSome = true)))

theorem Formula.depth_le_size (formula : Formula) : formula.depth ≤ formula.size := by
  induction formula with
  | literal position number => exact Nat.le_refl 1
  | quantity position => exact Nat.le_refl 1
  | unary position operator operand ih =>
      simp only [depth, size]
      omega
  | binary position operator left right leftIh rightIh =>
      simp only [depth, size]
      omega
  | choice position condition consequent alternate firstIh secondIh thirdIh =>
      simp only [depth, size]
      omega
  | foreign leaf => exact Nat.le_refl 1

namespace Phrase

theorem loosen {tight : Level} {tokens : List Token} {formula : Formula} {nesting : Nat}
    (phrase : Phrase tight tokens formula nesting) (level : Level)
    (below : level.rank ≤ tight.rank) : Phrase level tokens formula nesting := by
  -- The looser level stands one step in front of a level that is reached already.
  rcases Nat.lt_or_eq_of_le below with strict | same
  · obtain ⟨next, above⟩ := Level.tighter?_of_rank_lt level tight strict
    have raised := Level.rank_of_tighter? level next above
    exact .tighter above (loosen phrase next (by omega))
  · rw [Level.eq_of_rank_eq level tight same]
    exact phrase
termination_by tight.rank - level.rank

theorem size_le_length {level : Level} {tokens : List Token} {formula : Formula} {nesting : Nat}
    (phrase : Phrase level tokens formula nesting) : formula.size ≤ tokens.length := by
  induction phrase with
  | tighter above part ih => exact ih
  | choice asks divides conditionPart consequentPart alternatePart firstIh secondIh thirdIh =>
      simp only [Formula.size, List.length_append, List.length_cons] at firstIh ⊢
      omega
  | joined joins above leftPart rightPart leftIh rightIh =>
      simp only [Formula.size, List.length_append, List.length_cons]
      omega
  | negation spelled part ih =>
      simp only [Formula.size, List.length_cons]
      omega
  | sign spelled part ih =>
      simp only [Formula.size, List.length_cons]
      omega
  | number spelled read small => exact Nat.le_refl 1
  | quantity spelled => exact Nat.le_refl 1
  | group opens closes part ih =>
      simp only [List.length_append, List.length_cons]
      omega

/-- Each level of nesting is entered by a token of its own, and something stands inside. -/
theorem nesting_lt_length {level : Level} {tokens : List Token} {formula : Formula}
    {nesting : Nat} (phrase : Phrase level tokens formula nesting) : nesting < tokens.length := by
  induction phrase with
  | tighter above part ih => exact ih
  | choice asks divides conditionPart consequentPart alternatePart firstIh secondIh thirdIh =>
      simp only [List.length_append, List.length_cons] at firstIh ⊢
      omega
  | joined joins above leftPart rightPart leftIh rightIh =>
      simp only [List.length_append, List.length_cons]
      omega
  | negation spelled part ih =>
      simp only [List.length_cons]
      omega
  | sign spelled part ih =>
      simp only [List.length_cons]
      omega
  | number spelled read small => exact Nat.one_pos
  | quantity spelled => exact Nat.one_pos
  | group opens closes part ih =>
      simp only [List.length_append, List.length_cons]
      omega

theorem ne_nil {level : Level} {tokens : List Token} {formula : Formula} {nesting : Nat}
    (phrase : Phrase level tokens formula nesting) : tokens ≠ [] :=
  List.ne_nil_of_length_pos (Nat.zero_lt_of_lt phrase.nesting_lt_length)

end Phrase

end PluralRule
