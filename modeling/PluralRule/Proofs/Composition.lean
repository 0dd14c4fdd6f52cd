import PluralRule.Proofs.Filtering
import PluralRule.Proofs.Scanning.Seam

/-!
Composition. Sources that are read as formulas are put together with operators,
and every part is read as if it stood alone, only further behind. A choice takes
its branches without parentheses: nothing that stands in a branch reaches over
the colon. Main statement: a group, a sign, a negation, an operation and a choice
of sources are read as the formulas that are built of theirs, and every node of a
part keeps its place in the part.
-/

namespace PluralRule

open Text (isBlank)
open Token (Decomposes Parted isWordPart)

def Operation.spellings : Operation → List String
  | .logical .conjunction => ["&&", "and"]
  | .logical .disjunction => ["||", "or"]
  | operation => [operation.symbol]

theorem Operation.written (operation : Operation) {spelling : String}
    (spelled : spelling ∈ operation.spellings) : operation.kind.Written spelling.toList := by
  have listed : ∀ word ∈ operation.spellings, word.toList ∈ operation.kind.spellings := by
    cases operation with
    | logical connective => cases connective <;> decide
    | relational comparison => cases comparison <;> decide
    | numeric arithmetic => cases arithmetic <;> decide
  exact Or.inr (listed spelling spelled)

theorem Phrase.mapPosition {level : Level} {tokens : List Token} {formula : Formula}
    {nesting : Nat} (phrase : Phrase level tokens formula nesting) (move : Int → Int) :
    Phrase level (tokens.map (Token.mapPosition move)) (formula.mapPosition move) nesting := by
  induction phrase with
  | tighter above part ih => exact .tighter above ih
  | choice asks divides conditionPart consequentPart alternatePart firstIh secondIh thirdIh =>
      simp only [List.map_append, List.map_cons]
      exact .choice asks divides firstIh secondIh thirdIh
  | joined joins above leftPart rightPart leftIh rightIh =>
      rw [List.map_append]
      exact .joined joins above leftIh rightIh
  | negation spelled part ih => exact .negation spelled ih
  | sign spelled part ih => exact .sign spelled ih
  | number spelled read small => exact .number spelled read small
  | quantity spelled => exact .quantity spelled
  | group opens closes part ih =>
      rw [List.map_cons, List.map_append]
      exact .group opens closes ih

theorem Formula.mapPosition_add (formula : Formula) (inner outer : Int) :
    (formula.mapPosition (· + inner)).mapPosition (· + outer) =
      formula.mapPosition (· + (inner + outer)) := by
  rw [mapPosition_mapPosition]
  congr 1
  funext place
  simp only [Function.comp_apply]
  omega

def Phrased (text : List Char) (level : Level) (formula : Formula) (nesting : Nat) : Prop :=
  ∃ lexemes, Decomposes text 0 lexemes ∧ Phrase level lexemes formula nesting

namespace Token

variable {kind : Kind} {tokens : List Token} {before behind word : List Char} {symbol : Char}

/-- No token goes on with a symbol other than the equals sign, or with a blank. -/
theorem parted_of_apart
    (apart : ∀ next ∈ behind.head?, isWordPart next = false ∧ next ≠ '=') :
    Parted tokens before behind := by
  rintro token - - next head (⟨-, digit⟩ | ⟨-, part⟩ | ⟨-, equals⟩)
  · exact absurd (wordPart_of_digit digit) (by simp [(apart next head).1])
  · exact absurd part (by simp [(apart next head).1])
  · exact (apart next head).2 equals

theorem parted_of_symbol (outside : isWordPart symbol = false)
    (alone : [symbol] ∉ [['<'], ['>'], ['!']]) {place : Int} :
    Parted [⟨kind, String.ofList [symbol], place⟩] before behind := by
  intro token member _ next _
  obtain rfl := List.mem_singleton.mp member
  rw [String.toList_ofList]
  exact not_prolongs_of_symbol outside fun single => absurd single alone

theorem Decomposes.spaced_join {left right : List Char} {front rear : List Token}
    (leftPart : Decomposes left 0 front) (written : kind.Written word)
    (rightPart : Decomposes right 0 rear) :
    Decomposes (left ++ ((' ' :: word ++ [' ']) ++ right)) 0
      (front ++ ⟨kind, String.ofList word, left.length + 1⟩ ::
        rear.map (mapPosition (· + (left.length + word.length + 2 : Int)))) := by
  -- The blank behind the word ends it, so that what is behind begins anew.
  have behind := (Decomposes.spaced written).join rightPart (by
    intro token member ended
    obtain rfl := List.mem_singleton.mp member
    simp only [stop, String.length_ofList, List.length_append, List.length_cons,
      List.length_nil] at ended
    omega)
  have whole := leftPart.join behind (parted_of_apart (by simp; decide))
  have far : (left.length : Int) + ((' ' :: word ++ [' ']).length : Int) =
      left.length + word.length + 2 := by
    simp only [List.length_append, List.length_cons, List.length_nil]
    omega
  have near : (1 : Int) + left.length = left.length + 1 := by omega
  rw [List.map_append, map_mapPosition_add, far] at whole
  rw [← near]
  exact whole

end Token

namespace Phrased

variable {text left right condition consequent alternate : List Char} {level : Level}
  {formula first second third : Formula} {nesting outer inner last : Nat}

theorem loosen {tight : Level} (phrased : Phrased text tight formula nesting) (level : Level)
    (below : level.rank ≤ tight.rank) : Phrased text level formula nesting := by
  obtain ⟨lexemes, decomposes, phrase⟩ := phrased
  exact ⟨lexemes, decomposes, phrase.loosen level below⟩

theorem group (phrased : Phrased text .choice formula nesting) :
    Phrased ('(' :: (text ++ [')'])) .primary (formula.mapPosition (· + 1)) (1 + nesting) := by
  obtain ⟨lexemes, decomposes, phrase⟩ := phrased
  have opening : Decomposes ['('] 0 [⟨.opening, "(", 0⟩] := .single (Or.inr (by decide))
  have closing : Decomposes [')'] 0 [⟨.closing, ")", 0⟩] := .single (Or.inr (by decide))
  have inside := decomposes.join closing (Token.parted_of_apart (by simp; decide))
  have whole := opening.join inside (Token.parted_of_symbol (by decide) (by decide))
  rw [List.map_append] at whole
  exact ⟨_, whole, .group rfl rfl (phrase.mapPosition (· + 1))⟩

theorem group_length (text : List Char) :
    (('(' :: (text ++ [')'])).length : Int) = text.length + 2 := by
  simp only [List.length_cons, List.length_append, List.length_nil]
  omega

theorem sign (phrased : Phrased text .sign formula nesting) :
    Phrased ('-' :: text) .sign (.unary 0 .sign (formula.mapPosition (· + 1))) (1 + nesting) := by
  obtain ⟨lexemes, decomposes, phrase⟩ := phrased
  have minus : Decomposes ['-'] 0 [⟨.minus, "-", 0⟩] := .single (Or.inr (by decide))
  have whole := minus.join decomposes (Token.parted_of_symbol (by decide) (by decide))
  exact ⟨_, whole, .sign rfl (phrase.mapPosition (· + 1))⟩

theorem signedGroup (phrased : Phrased text .choice formula nesting) :
    Phrased ('-' :: '(' :: (text ++ [')'])) .sign
      (.unary 0 .sign (formula.mapPosition (· + 2))) (2 + nesting) := by
  have signed := (phrased.group.loosen .sign (by decide)).sign
  rwa [Formula.mapPosition_add, ← Nat.add_assoc] at signed

theorem negatedGroup {mark : List Char} {token : Token} (single : Decomposes mark 0 [token])
    (spelled : token.kind = .not) (phrased : Phrased text .choice formula nesting) :
    Phrased (mark ++ '(' :: (text ++ [')'])) .negation
      (.unary token.position .negation (formula.mapPosition (· + (1 + mark.length : Int))))
      (2 + nesting) := by
  obtain ⟨lexemes, decomposes, phrase⟩ := phrased.group.loosen .negation (by decide)
  have whole := single.join decomposes (Token.parted_of_apart (by simp; decide))
  have negated := Phrase.negation spelled (phrase.mapPosition (· + (mark.length : Int)))
  rw [Formula.mapPosition_add, ← Nat.add_assoc] at negated
  exact ⟨_, whole, negated⟩

theorem joined (operation : Operation) {spelling : String}
    (spelled : spelling ∈ operation.spellings) (front : Phrased left .primary first outer)
    (rear : Phrased right .primary second inner) :
    Phrased (left ++ ((' ' :: spelling.toList ++ [' ']) ++ right)) operation.level
      (.binary (left.length + 1) (.known operation) first
        (second.mapPosition (· + (left.length + spelling.toList.length + 2 : Int))))
      (max outer inner) := by
  obtain ⟨before, leftPart, leftPhrase⟩ := front
  obtain ⟨after, rightPart, rightPhrase⟩ := rear
  obtain ⟨next, above, -⟩ := operation.tighter_level
  exact ⟨_, leftPart.spaced_join (operation.written spelled) rightPart,
    .joined (operation.joins_level _ operation.operation?_kind) above
      (leftPhrase.loosen _ (Level.rank_le_primary _))
      ((rightPhrase.mapPosition _).loosen _ (Level.rank_le_primary _))⟩

theorem joinedGroups (operation : Operation) {spelling : String}
    (spelled : spelling ∈ operation.spellings) (front : Phrased left .choice first outer)
    (rear : Phrased right .choice second inner) :
    Phrased ('(' :: (left ++ [')']) ++
        ((' ' :: spelling.toList ++ [' ']) ++ '(' :: (right ++ [')']))) operation.level
      (.binary (left.length + 3) (.known operation) (first.mapPosition (· + 1))
        (second.mapPosition (· + (left.length + spelling.toList.length + 5 : Int))))
      (max (1 + outer) (1 + inner)) := by
  have place : (('(' :: (left ++ [')'])).length : Int) + 1 = left.length + 3 := by
    rw [group_length]
    omega
  have far : 1 + ((('(' :: (left ++ [')'])).length : Int) + spelling.toList.length + 2) =
      left.length + spelling.toList.length + 5 := by
    rw [group_length]
    omega
  have whole := joined operation spelled front.group rear.group
  rwa [Formula.mapPosition_add, place, far] at whole

theorem choice {head : Char} {tail : List Char} (starts : condition = head :: tail)
    (visible : isBlank head = false) (asked : Phrased condition .disjunction first outer)
    (taken : Phrased consequent .choice second inner)
    (otherwise : Phrased alternate .choice third last) :
    Phrased (condition ++ ([' ', '?', ' '] ++ (consequent ++ ([' ', ':', ' '] ++ alternate))))
      .choice
      (.choice 0 first (second.mapPosition (· + (condition.length + 3 : Int)))
        (third.mapPosition (· + (condition.length + consequent.length + 6 : Int))))
      (max outer (max (1 + inner) (1 + last))) := by
  obtain ⟨front, conditionPart, conditionPhrase⟩ := asked
  obtain ⟨middle, consequentPart, consequentPhrase⟩ := taken
  obtain ⟨rear, alternatePart, alternatePhrase⟩ := otherwise
  have question : Token.Kind.Written .question ['?'] := Or.inr (by decide)
  have colon : Token.Kind.Written .colon [':'] := Or.inr (by decide)
  have whole :=
    conditionPart.spaced_join question (consequentPart.spaced_join colon alternatePart)
  -- The choice begins where its condition begins.
  obtain ⟨kind, word, others, rfl, -⟩ := conditionPart.uncons (by rw [starts]; rfl) visible
  have near : (condition.length : Int) + ['?'].length + 2 = condition.length + 3 := by
    simp only [List.length_singleton]
    omega
  have far : (condition.length + 3 : Int) + (consequent.length + [':'].length + 2) =
      condition.length + consequent.length + 6 := by
    simp only [List.length_singleton]
    omega
  rw [near, List.map_append, List.map_cons, Token.map_mapPosition_add, far] at whole
  exact ⟨_, whole, .choice rfl rfl conditionPhrase (consequentPhrase.mapPosition _)
    (alternatePhrase.mapPosition _)⟩

theorem choiceOfGroup (asked : Phrased condition .choice first outer)
    (taken : Phrased consequent .choice second inner)
    (otherwise : Phrased alternate .choice third last) :
    Phrased ('(' :: (condition ++ [')']) ++
        ([' ', '?', ' '] ++ (consequent ++ ([' ', ':', ' '] ++ alternate)))) .choice
      (.choice 0 (first.mapPosition (· + 1))
        (second.mapPosition (· + (condition.length + 5 : Int)))
        (third.mapPosition (· + (condition.length + consequent.length + 8 : Int))))
      (max (1 + outer) (max (1 + inner) (1 + last))) := by
  have near : (('(' :: (condition ++ [')'])).length : Int) + 3 = condition.length + 5 := by
    rw [group_length]
    omega
  have far : (('(' :: (condition ++ [')'])).length : Int) + consequent.length + 6 =
      condition.length + consequent.length + 8 := by
    rw [group_length]
    omega
  have whole := choice rfl (by decide) (asked.group.loosen .disjunction (by decide)) taken otherwise
  rwa [near, far] at whole

end Phrased

namespace Formula

/-- The limits read the source as the formula, except those that refuse it for
its length, for the nesting or for the formula. -/
structure ReadAs (source : String) (nesting : Nat) (formula : Formula) : Prop where
  filtered : ∀ limits, ofSource limits source = limits.filtered source nesting formula
  roomy : ∀ ample : Limits, (∀ bound, (source.length : Int) + 1 ≤ ample.limit bound) →
    ofSource ample source = .ok formula

variable {source : String} {text : List Char} {formula : Formula} {nesting : Nat}

theorem phrased_of_ofSource {limits : Limits} (read : ofSource limits source = .ok formula) :
    Phrased source.toList .choice formula (peakNesting limits source) :=
  phrase_peakNesting read

theorem readAs_of_phrased (phrased : Phrased text .choice formula nesting)
    (written : source.toList = text) : ReadAs source nesting formula := by
  obtain ⟨lexemes, decomposes, phrase⟩ := phrased
  rw [← written] at decomposes
  have filtered (limits : Limits) :
      ofSource limits source = limits.filtered source nesting formula :=
    ofSource_eq_filtered limits decomposes phrase
  refine ⟨filtered, fun ample roomy => ?_⟩
  -- Characters are as many as tokens at least, and tokens as many as nodes and as levels.
  have long : (source.length : Int) + 1 ≤ ample.maxLength := roomy .length
  have deep : (source.length : Int) + 1 ≤ ample.maxDepth := roomy .depth
  have wide : (source.length : Int) + 1 ≤ ample.maxNodes := roomy .nodes
  have counted := decomposes.length_le (Nat.zero_le _)
  have sized := phrase.size_le_length
  have leveled := formula.depth_le_size
  have nested := phrase.nesting_lt_length
  rw [String.length_toList] at counted
  rw [filtered, Limits.filtered, nodeCount_eq_size, treeDepth_eq_depth, if_neg (by omega),
    if_neg (by omega), if_neg (by omega), if_neg (by omega)]

/-- Sources that are read as formulas compose. Each part of the composed formula is
the formula of its source, moved by as much as stands in front of the source. -/
theorem ofSource_composes {firstLimits secondLimits thirdLimits : Limits}
    {first second third : String} {condition left right : Formula}
    (firstRead : ofSource firstLimits first = .ok condition)
    (secondRead : ofSource secondLimits second = .ok left)
    (thirdRead : ofSource thirdLimits third = .ok right) :
    ReadAs ("(" ++ first ++ ")") (1 + peakNesting firstLimits first)
        (condition.mapPosition (· + 1)) ∧
      ReadAs ("-(" ++ first ++ ")") (2 + peakNesting firstLimits first)
        (.unary 0 .sign (condition.mapPosition (· + 2))) ∧
      ReadAs ("!(" ++ first ++ ")") (2 + peakNesting firstLimits first)
        (.unary 0 .negation (condition.mapPosition (· + 2))) ∧
      ReadAs ("not (" ++ first ++ ")") (2 + peakNesting firstLimits first)
        (.unary 0 .negation (condition.mapPosition (· + 5))) ∧
      (∀ (operation : Operation), ∀ spelling ∈ operation.spellings,
        ReadAs ("(" ++ first ++ ") " ++ spelling ++ " (" ++ second ++ ")")
          (max (1 + peakNesting firstLimits first) (1 + peakNesting secondLimits second))
          (.binary (first.length + 3) (.known operation) (condition.mapPosition (· + 1))
            (left.mapPosition (· + (first.length + spelling.length + 5 : Int))))) ∧
      ReadAs ("(" ++ first ++ ") ? " ++ second ++ " : " ++ third)
        (max (1 + peakNesting firstLimits first)
          (max (1 + peakNesting secondLimits second) (1 + peakNesting thirdLimits third)))
        (.choice 0 (condition.mapPosition (· + 1))
          (left.mapPosition (· + (first.length + 5 : Int)))
          (right.mapPosition (· + (first.length + second.length + 8 : Int)))) := by
  have asked := phrased_of_ofSource firstRead
  have taken := phrased_of_ofSource secondRead
  have otherwise := phrased_of_ofSource thirdRead
  refine ⟨?_, ?_, ?_, ?_, fun operation spelling spelled => ?_, ?_⟩
  · exact readAs_of_phrased (asked.group.loosen _ (by decide)) (by simp)
  · exact readAs_of_phrased (asked.signedGroup.loosen _ (by decide)) (by simp)
  · have mark : Decomposes ['!'] 0 [⟨.not, "!", 0⟩] := .single (Or.inr (by decide))
    exact readAs_of_phrased ((asked.negatedGroup mark rfl).loosen _ (by decide)) (by simp)
  · have word : Decomposes ['n', 'o', 't'] 0 [⟨.not, "not", 0⟩] := .single (Or.inr (by decide))
    have blank : Decomposes [' '] 0 [] := .of_blank (List.forall_mem_singleton.mpr (by decide))
    have mark := word.join blank (Token.parted_of_apart (by simp; decide))
    exact readAs_of_phrased ((asked.negatedGroup mark rfl).loosen _ (by decide)) (by simp)
  · have joined := asked.joinedGroups operation spelled taken
    rw [String.length_toList, String.length_toList] at joined
    exact readAs_of_phrased (joined.loosen _ (Nat.zero_le _)) (by simp)
  · have chosen := asked.choiceOfGroup taken otherwise
    rw [String.length_toList, String.length_toList] at chosen
    exact readAs_of_phrased chosen (by simp)

theorem ofSource_composes_innerChoices :
    ofSource Limits.standard "n" = .ok (.quantity 0) ∧
      ofSource Limits.standard "n?1:n" =
        .ok (.choice 0 (.quantity 0) (.literal 2 (.int 1)) (.quantity 4)) ∧
      ofSource Limits.standard "(n) ? n?1:n : n?1:n" =
        .ok (.choice 0 (.quantity 1) (.choice 6 (.quantity 6) (.literal 8 (.int 1)) (.quantity 10))
          (.choice 14 (.quantity 14) (.literal 16 (.int 1)) (.quantity 18))) := by
  have condition : ofSource Limits.standard "n" = .ok (.quantity 0) := by
    have scan : Token.scan 0 "n".toList = ⟨[⟨.quantity, "n", 0⟩], 1, none⟩ := by decide +kernel
    rw [ofSource, Token.ofSource, Scanner.run_start (by decide), scan]
    exact (measured_eq_ok_iff _ _ _).mpr ⟨rfl, by decide, by decide⟩
  have branch : ofSource Limits.standard "n?1:n" =
      .ok (.choice 0 (.quantity 0) (.literal 2 (.int 1)) (.quantity 4)) := by
    have scan : Token.scan 0 "n?1:n".toList =
        ⟨[⟨.quantity, "n", 0⟩, ⟨.question, "?", 1⟩, ⟨.number, "1", 2⟩, ⟨.colon, ":", 3⟩,
          ⟨.quantity, "n", 4⟩], 5, none⟩ := by
      decide +kernel
    rw [ofSource, Token.ofSource, Scanner.run_start (by decide), scan]
    exact (measured_eq_ok_iff _ _ _).mpr ⟨rfl, by decide, by decide⟩
  obtain ⟨-, -, -, -, -, chosen⟩ := ofSource_composes condition branch branch
  refine ⟨condition, branch, chosen.roomy Limits.standard fun bound => ?_⟩
  cases bound <;> decide

end Formula

end PluralRule
