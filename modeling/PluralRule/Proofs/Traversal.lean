import Mathlib.Data.List.Basic
import PluralRule.Proofs.Parts
import PluralRule.Proofs.Source

/-!
Formulas walked from left to right. The walk lists what a formula keeps of the
tokens it was read from: leaves and operators with their places, and the marks of
a choice between its branches. Main statement: the walk of a formula that was
read from a source lists the tokens of the source in their order, all of them but
the parentheses, and every part of the formula has the place of a token.
-/

namespace PluralRule

/-- What a formula keeps of a token. Only numbers have values; a question mark
and a colon have no node of their own, and no place is kept for them. -/
structure Mark where
  kind : Option Token.Kind
  position : Option Int
  value : Option Number
  deriving DecidableEq, Repr

namespace Mark

def literal (position : Int) (number : Number) : Mark :=
  ⟨some .number, some position, some number⟩

def quantity (position : Int) : Mark := ⟨some .quantity, some position, none⟩

def operator (kind : Option Token.Kind) (position : Int) : Mark := ⟨kind, some position, none⟩

def divider (kind : Token.Kind) : Mark := ⟨some kind, none, none⟩

end Mark

def UnaryOperator.kind? : UnaryOperator → Option Token.Kind
  | .negation => some .not
  | .sign => some .minus
  | .unknown .. => none

def BinaryOperator.kind? : BinaryOperator → Option Token.Kind
  | .known operation => some operation.kind
  | .unknown .. => none

namespace Token

def Kind.isParenthesis : Kind → Bool
  | .opening => true
  | .closing => true
  | _ => false

def Kind.isDivider : Kind → Bool
  | .question => true
  | .colon => true
  | _ => false

def mark (token : Token) : Mark where
  kind := some token.kind
  position := if token.kind.isDivider then none else some token.position
  value :=
    if token.kind = .number then (Text.natural? token.text.toList).map fun value => .int value
    else none

/-- Parentheses leave no mark. -/
def marks (tokens : List Token) : List Mark :=
  (tokens.filter fun token => !token.kind.isParenthesis).map mark

end Token

namespace Formula

/-- What a node keeps of its own token. A choice has no token of its own. -/
def mark? : Formula → Option Mark
  | .literal position number => some (.literal position number)
  | .quantity position => some (.quantity position)
  | .unary position operator _ => some (.operator operator.kind? position)
  | .binary position operator _ _ => some (.operator operator.kind? position)
  | .choice .. => none
  | .foreign _ => none

def marks : Formula → List Mark
  | .literal position number => [.literal position number]
  | .quantity position => [.quantity position]
  | .unary position operator operand => .operator operator.kind? position :: operand.marks
  | .binary position operator left right =>
      left.marks ++ .operator operator.kind? position :: right.marks
  | .choice _ condition consequent alternate =>
      condition.marks ++ .divider .question :: (consequent.marks ++
        .divider .colon :: alternate.marks)
  | .foreign _ => []

def choices : Formula → Nat
  | .unary _ _ operand => operand.choices
  | .binary _ _ left right => left.choices + right.choices
  | .choice _ condition consequent alternate =>
      1 + (condition.choices + (consequent.choices + alternate.choices))
  | _ => 0

/-- Each node has one mark, and a choice has a second one. -/
theorem length_marks (formula : Formula) (genuine : formula.Genuine) :
    formula.marks.length = formula.size + formula.choices := by
  induction formula with
  | literal position number => rfl
  | quantity position => rfl
  | unary position operator operand ih =>
      have inner := ih genuine
      simp only [marks, size, choices, List.length_cons]
      omega
  | binary position operator left right leftIh rightIh =>
      have before := leftIh genuine.1
      have behind := rightIh genuine.2
      simp only [marks, size, choices, List.length_append, List.length_cons]
      omega
  | choice position condition consequent alternate firstIh secondIh thirdIh =>
      have first := firstIh genuine.1
      have second := secondIh genuine.2.1
      have third := thirdIh genuine.2.2
      simp only [marks, size, choices, List.length_append, List.length_cons]
      omega
  | foreign leaf => exact absurd genuine id

end Formula

namespace Token

theorem marks_append (front rear : List Token) :
    marks (front ++ rear) = marks front ++ marks rear := by
  simp only [marks, List.filter_append, List.map_append]

theorem marks_cons_of_parenthesis {token : Token} (rest : List Token)
    (dropped : token.kind.isParenthesis = true) : marks (token :: rest) = marks rest := by
  simp [marks, dropped]

theorem marks_cons_of_kept {token : Token} (rest : List Token)
    (kept : token.kind.isParenthesis = false) :
    marks (token :: rest) = token.mark :: marks rest := by
  simp [marks, kept]

theorem length_marks (tokens : List Token) :
    tokens.length =
      (marks tokens).length + (tokens.filter fun token => token.kind.isParenthesis).length := by
  rw [marks, List.length_map, Nat.add_comm]
  exact List.length_eq_length_filter_add fun token : Token => token.kind.isParenthesis

theorem mark_of_operator {token : Token} {operation : Operation}
    (spelled : token.kind.operation? = some operation) :
    token.kind.isParenthesis = false ∧
      token.mark = .operator (BinaryOperator.known operation).kind? token.position := by
  obtain ⟨kind, text, position⟩ := token
  cases kind <;> cases spelled <;> exact ⟨rfl, rfl⟩

theorem mark_of_negation {token : Token} (spelled : token.kind = .not) :
    token.mark = .operator UnaryOperator.negation.kind? token.position := by
  simp only [mark, spelled]
  rfl

theorem mark_of_sign {token : Token} (spelled : token.kind = .minus) :
    token.mark = .operator UnaryOperator.sign.kind? token.position := by
  simp only [mark, spelled]
  rfl

theorem mark_of_number {token : Token} {value : Nat} (spelled : token.kind = .number)
    (read : Text.natural? token.text.toList = some value) :
    token.mark = .literal token.position (.int value) := by
  simp only [mark, spelled, read]
  rfl

theorem mark_of_quantity {token : Token} (spelled : token.kind = .quantity) :
    token.mark = .quantity token.position := by
  simp only [mark, spelled]
  rfl

theorem mark_of_divider {token : Token} {kind : Kind} (spelled : token.kind = kind)
    (divides : kind.isDivider = true) : token.mark = .divider kind := by
  subst spelled
  have other : token.kind ≠ .number := by
    intro number
    rw [number] at divides
    cases divides
  simp only [mark, divides, other, if_true, if_false]
  rfl

end Token

namespace Phrase

variable {level : Level} {tokens : List Token} {formula part : Formula} {nesting : Nat}

theorem marks_eq (phrase : Phrase level tokens formula nesting) :
    Token.marks tokens = formula.marks := by
  induction phrase with
  -- A tighter level and parentheses build no node.
  | tighter above part ih => exact ih
  | @choice _ question colon _ second third _ _ _ _ _ _ asks divides _ _ _ firstIh secondIh
      thirdIh =>
      have asked : question.kind.isParenthesis = false := by rw [asks]; rfl
      have divided : colon.kind.isParenthesis = false := by rw [divides]; rfl
      rw [Token.marks_append, Token.marks_append, Token.marks_cons_of_kept second asked,
        Token.marks_cons_of_kept third divided, Token.mark_of_divider asks rfl,
        Token.mark_of_divider divides rfl, firstIh, secondIh, thirdIh]
      rfl
  | joined joins above leftPart rightPart leftIh rightIh =>
      obtain ⟨kept, marked⟩ := Token.mark_of_operator (Level.operation?_of_joins? _ _ _ joins).1
      rw [Token.marks_append, Token.marks_cons_of_kept _ kept, marked, leftIh, rightIh]
      rfl
  | negation spelled part ih =>
      rw [Token.marks_cons_of_kept _ (by rw [spelled]; rfl), Token.mark_of_negation spelled, ih]
      rfl
  | sign spelled part ih =>
      rw [Token.marks_cons_of_kept _ (by rw [spelled]; rfl), Token.mark_of_sign spelled, ih]
      rfl
  | number spelled read small =>
      rw [Token.marks_cons_of_kept _ (by rw [spelled]; rfl), Token.mark_of_number spelled read]
      rfl
  | quantity spelled =>
      rw [Token.marks_cons_of_kept _ (by rw [spelled]; rfl), Token.mark_of_quantity spelled]
      rfl
  | group opens closes part ih =>
      rw [Token.marks_cons_of_parenthesis _ (by rw [opens]; rfl), Token.marks_append,
        Token.marks_cons_of_parenthesis _ (by rw [closes]; rfl), ih]
      exact List.append_nil _

theorem exists_first (phrase : Phrase level tokens formula nesting) :
    ∃ openings first behind, tokens = openings ++ first :: behind ∧
      (∀ token ∈ openings, token.kind = .opening) ∧
      formula.marks.head? = some first.mark := by
  induction phrase with
  | tighter above part ih => exact ih
  | choice asks divides conditionPart consequentPart alternatePart firstIh secondIh thirdIh =>
      obtain ⟨openings, first, behind, split, opens, marked⟩ := firstIh
      refine ⟨openings, first, _, by rw [split, List.append_assoc, List.cons_append], opens, ?_⟩
      rw [Formula.marks, List.head?_append, marked]
      rfl
  | joined joins above leftPart rightPart leftIh rightIh =>
      obtain ⟨openings, first, behind, split, opens, marked⟩ := leftIh
      refine ⟨openings, first, _, by rw [split, List.append_assoc, List.cons_append], opens, ?_⟩
      rw [Formula.marks, List.head?_append, marked]
      rfl
  | negation spelled part ih =>
      exact ⟨[], _, _, rfl, by simp, congrArg some (Token.mark_of_negation spelled).symm⟩
  | sign spelled part ih =>
      exact ⟨[], _, _, rfl, by simp, congrArg some (Token.mark_of_sign spelled).symm⟩
  | number spelled read small =>
      exact ⟨[], _, _, rfl, by simp, congrArg some (Token.mark_of_number spelled read).symm⟩
  | quantity spelled =>
      exact ⟨[], _, _, rfl, by simp, congrArg some (Token.mark_of_quantity spelled).symm⟩
  -- One more parenthesis in front of the first token that is kept.
  | @group opening closing _ _ _ opens closes part ih =>
      obtain ⟨openings, first, behind, split, inner, marked⟩ := ih
      refine ⟨opening :: openings, first, behind ++ [closing], by simp [split],
        List.forall_mem_cons.mpr ⟨opens, inner⟩, marked⟩

theorem exists_token (phrase : Phrase level tokens formula nesting) :
    ∃ token ∈ tokens, formula.position? = some token.position ∧
      ∀ mark ∈ formula.mark?, token.mark = mark := by
  induction phrase with
  | tighter above part ih => exact ih
  | choice asks divides conditionPart consequentPart alternatePart firstIh secondIh thirdIh =>
      refine ⟨_, List.mem_append_left _ List.mem_cons_self, rfl, fun mark own => ?_⟩
      cases own
  | joined joins above leftPart rightPart leftIh rightIh =>
      obtain ⟨-, marked⟩ := Token.mark_of_operator (Level.operation?_of_joins? _ _ _ joins).1
      exact ⟨_, List.mem_append_right _ List.mem_cons_self, rfl,
        fun mark own => marked.trans (Option.some.inj own)⟩
  | negation spelled part ih =>
      have marked := Token.mark_of_negation spelled
      exact ⟨_, List.mem_cons_self, rfl, fun mark own => marked.trans (Option.some.inj own)⟩
  | sign spelled part ih =>
      have marked := Token.mark_of_sign spelled
      exact ⟨_, List.mem_cons_self, rfl, fun mark own => marked.trans (Option.some.inj own)⟩
  | number spelled read small =>
      have marked := Token.mark_of_number spelled read
      exact ⟨_, List.mem_cons_self, rfl, fun mark own => marked.trans (Option.some.inj own)⟩
  | quantity spelled =>
      have marked := Token.mark_of_quantity spelled
      exact ⟨_, List.mem_cons_self, rfl, fun mark own => marked.trans (Option.some.inj own)⟩
  | group opens closes part ih =>
      obtain ⟨token, member, placed, marked⟩ := ih
      exact ⟨token, List.mem_cons_of_mem _ (List.mem_append_left _ member), placed, marked⟩

theorem exists_span_of_child (phrase : Phrase level tokens formula nesting)
    (member : part ∈ formula.children) :
    ∃ span inner depth, span <:+: tokens ∧ Phrase inner span part depth := by
  induction phrase with
  | tighter above whole ih => exact ih member
  | @choice first question colon rest second third _ _ _ _ _ _ _ _ conditionPart consequentPart
      alternatePart _ _ _ =>
      rcases List.mem_cons.mp member with rfl | branch
      · exact ⟨_, _, _, (List.prefix_append _ _).isInfix, conditionPart⟩
      · rcases List.mem_cons.mp branch with rfl | final
        · refine ⟨_, _, _, ⟨first :: rest ++ [question], colon :: third, ?_⟩, consequentPart⟩
          simp
        · rw [List.mem_singleton.mp final]
          refine ⟨_, _, _, List.IsSuffix.isInfix ?_, alternatePart⟩
          exact ⟨first :: rest ++ question :: second ++ [colon], by simp⟩
  | @joined _ _ token _ before _ _ _ _ _ _ _ leftPart rightPart _ _ =>
      rcases List.mem_cons.mp member with rfl | final
      · exact ⟨_, _, _, (List.prefix_append _ _).isInfix, leftPart⟩
      · rw [List.mem_singleton.mp final]
        refine ⟨_, _, _, List.IsSuffix.isInfix ?_, rightPart⟩
        exact ⟨before ++ [token], by simp⟩
  | negation spelled operand ih =>
      rw [List.mem_singleton.mp member]
      exact ⟨_, _, _, (List.suffix_cons _ _).isInfix, operand⟩
  | sign spelled operand ih =>
      rw [List.mem_singleton.mp member]
      exact ⟨_, _, _, (List.suffix_cons _ _).isInfix, operand⟩
  | number spelled read small => cases member
  | quantity spelled => cases member
  -- The children of a group are those of what it encloses.
  | group opens closes whole ih =>
      obtain ⟨span, inner, depth, inside, derived⟩ := ih member
      exact ⟨span, inner, depth, inside.trans ⟨[_], [_], rfl⟩, derived⟩

theorem exists_span (phrase : Phrase level tokens formula nesting) (within : part.Within formula) :
    ∃ span inner depth, span <:+: tokens ∧ Phrase inner span part depth := by
  induction within with
  | refl => exact ⟨tokens, level, nesting, List.infix_refl _, phrase⟩
  | tail outer member ih =>
      obtain ⟨whole, middle, depth, inside, derived⟩ := ih
      obtain ⟨span, inner, least, within, last⟩ := derived.exists_span_of_child member
      exact ⟨span, inner, least, within.trans inside, last⟩

/-- Every part of a formula has the place where a token of the text stands. -/
theorem exists_place {text : List Char} {start : Nat}
    (phrase : Phrase level tokens formula nesting)
    (decomposes : Token.Decomposes text start tokens) (within : part.Within formula) :
    ∃ token ∈ tokens, ∃ place : Nat, part.position? = some (place : Int) ∧
      token.position = place ∧ Token.Stands text place token.kind token.text.toList ∧
      ∀ mark ∈ part.mark?, token.mark = mark := by
  obtain ⟨span, inner, depth, inside, derived⟩ := phrase.exists_span within
  obtain ⟨token, member, placed, marked⟩ := derived.exists_token
  have among := inside.subset member
  obtain ⟨place, here, -, stands⟩ := decomposes.lexemes token among
  exact ⟨token, among, place, by rw [placed, here], here, stands, marked⟩

/-- The place of a choice is the place of the first parenthesis in front of its
condition, or of the first token of the condition where there is none. -/
theorem exists_first_of_choice {position : Int} {condition consequent alternate : Formula}
    (phrase : Phrase level tokens (.choice position condition consequent alternate) nesting) :
    ∃ openings first behind, openings ++ first :: behind <:+: tokens ∧
      (∀ token ∈ openings, token.kind = .opening) ∧
      condition.marks.head? = some first.mark ∧
      (openings ++ [first]).head?.map Token.position = some position := by
  generalize same : Formula.choice position condition consequent alternate = formula at phrase
  induction phrase with
  | tighter above part ih => exact ih same
  | choice asks divides conditionPart consequentPart alternatePart firstIh secondIh thirdIh =>
      cases same
      obtain ⟨openings, first, behind, split, opens, marked⟩ := conditionPart.exists_first
      refine ⟨openings, first, behind, ?_, opens, marked, ?_⟩
      · rw [← split]
        exact (List.prefix_append _ _).isInfix
      · -- The place of a choice is taken in front of its condition, at whatever stands first.
        cases openings with
        | nil => rw [(List.cons.inj split).1, List.nil_append, List.head?_cons, Option.map_some]
        | cons opening others =>
            rw [(List.cons.inj split).1, List.cons_append, List.head?_cons, Option.map_some]
  | group opens closes part ih =>
      obtain ⟨openings, first, behind, inside, rest⟩ := ih same
      exact ⟨openings, first, behind, inside.trans ⟨[_], [_], rfl⟩, rest⟩
  | _ => cases same

end Phrase

namespace Formula

/-- Walking a formula that was read from a source meets every token of the source
but the parentheses, in their order and with their places. A choice has the place
where its condition begins, parentheses included, and every part stands in the
source as the token it has the place of. -/
theorem ofSource_walks (limits : Limits) (source : String) (formula : Formula)
    (read : ofSource limits source = .ok formula) :
    ∃ tokens : List Token,
      Token.ofSource limits source = .ok (tokens ++ [Token.finish source.length]) ∧
      (∀ token ∈ tokens, token.kind ≠ .finish) ∧
      formula.marks = Token.marks tokens ∧
      (∀ position condition consequent alternate,
        (choice position condition consequent alternate).Within formula →
        ∃ before openings first behind, tokens = before ++ (openings ++ first :: behind) ∧
          (∀ token ∈ openings, token.kind = .opening) ∧
          condition.marks.head? = some first.mark ∧
          (openings ++ [first]).head?.map Token.position = some position) ∧
      tokens.length = formula.nodeCount + formula.choices +
        (tokens.filter fun token => token.kind.isParenthesis).length ∧
      ∀ part : Formula, part.Within formula →
        ∃ token ∈ tokens, ∃ place : Nat, part.position? = some (place : Int) ∧
          token.position = place ∧
          Token.Stands source.toList place token.kind token.text.toList ∧
          ∀ mark ∈ part.mark?, token.mark = mark := by
  obtain ⟨short, tokens, nesting, decomposes, phrase, -⟩ :=
    (ofSource_eq_ok_iff limits source formula).mp read
  have kept := phrase.marks_eq
  refine ⟨tokens, Token.ofSource_of_decomposes short decomposes,
    fun token member => (decomposes.plain token member).1, kept.symm, ?_, ?_,
    fun part => phrase.exists_place decomposes⟩
  · intro position condition consequent alternate within
    obtain ⟨span, level, depth, inside, derived⟩ := phrase.exists_span within
    obtain ⟨openings, first, behind, begins, opens, marked, placed⟩ :=
      derived.exists_first_of_choice
    obtain ⟨before, after, split⟩ := begins.trans inside
    refine ⟨before, openings, first, behind ++ after, ?_, opens, marked, placed⟩
    rw [← split]
    simp only [List.append_assoc, List.cons_append]
  · -- The marks are counted in the formula and once more in the tokens.
    rw [nodeCount_eq_size, ← formula.length_marks phrase.known.genuine, ← kept]
    exact Token.length_marks tokens

/-- A choice whose place is a parenthesis two tokens in front of its condition:
`((n)and 1)?007:-n`. -/
def parenthesizedCondition : Formula :=
  .choice 0 (.binary 4 (.known (.logical .conjunction)) (.quantity 2)
    (.literal 8 (.int 1))) (.literal 11 (.int 7)) (.unary 15 .sign (.quantity 16))

theorem ofSource_walks_parenthesizedCondition :
    ofSource Limits.standard "((n)and 1)?007:-n" = .ok parenthesizedCondition ∧
      ∃ tokens : List Token,
        Token.ofSource Limits.standard "((n)and 1)?007:-n" = .ok (tokens ++ [Token.finish 17]) ∧
        parenthesizedCondition.marks = Token.marks tokens ∧
        tokens.length = 7 + 1 + (tokens.filter fun token => token.kind.isParenthesis).length ∧
        ∃ openings first, (∀ token ∈ openings, token.kind = .opening) ∧
          Token.mark first = .quantity 2 ∧
          (openings ++ [first]).head?.map Token.position = some 0 := by
  have scan : (Token.scan 0 "((n)and 1)?007:-n".toList) =
      ⟨[⟨.opening, "(", 0⟩, ⟨.opening, "(", 1⟩, ⟨.quantity, "n", 2⟩, ⟨.closing, ")", 3⟩,
        ⟨.and, "and", 4⟩, ⟨.number, "1", 8⟩, ⟨.closing, ")", 9⟩, ⟨.question, "?", 10⟩,
        ⟨.number, "007", 11⟩, ⟨.colon, ":", 14⟩, ⟨.minus, "-", 15⟩, ⟨.quantity, "n", 16⟩],
        17, none⟩ := by
    decide +kernel
  have read : ofSource Limits.standard "((n)and 1)?007:-n" = .ok parenthesizedCondition := by
    rw [ofSource, Token.ofSource, Scanner.run_start (by decide), scan]
    exact (measured_eq_ok_iff _ _ _).mpr ⟨rfl, by decide, by decide⟩
  obtain ⟨tokens, scanned, -, walked, begins, counted, -⟩ := ofSource_walks _ _ _ read
  obtain ⟨-, openings, first, -, -, opens, marked, placed⟩ := begins _ _ _ _ .refl
  rw [nodeCount_eq_size] at counted
  exact ⟨read, tokens, scanned, walked, counted, openings, first, opens,
    (Option.some.inj marked).symm, placed⟩

end Formula

end PluralRule
