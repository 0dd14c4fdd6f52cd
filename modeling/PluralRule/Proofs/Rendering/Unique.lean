import PluralRule.Proofs.Known
import PluralRule.Proofs.Scanning.Lexeme

/-!
Rendered texts tell formulas apart. The text of an operand is decoded in front of
whatever does not go on with a digit: its first character tells literals, the
quantity and signs from each other and from what stands in parentheses, and
inside of parentheses the first operand ends before its operator does. Main
statement: known formulas with one text are the same but for their places, also
where their literals are no words.
-/

namespace PluralRule

open Text (isDigit)

theorem append_blank_inj {left right behind beyond : List Char} (solid : ' ' ∉ left)
    (compact : ' ' ∉ right) (same : left ++ ' ' :: behind = right ++ ' ' :: beyond) :
    left = right ∧ behind = beyond := by
  induction left generalizing right with
  | nil =>
      cases right with
      | nil => exact ⟨rfl, (List.cons.inj same).2⟩
      | cons second others =>
          obtain rfl := (List.cons.inj same).1
          exact absurd List.mem_cons_self compact
  | cons first rest ih =>
      cases right with
      | nil =>
          obtain rfl := (List.cons.inj same).1
          exact absurd List.mem_cons_self solid
      | cons second others =>
          obtain ⟨rfl, rests⟩ := List.cons.inj same
          obtain ⟨rfl, rfl⟩ := ih (List.not_mem_of_not_mem_cons solid)
            (List.not_mem_of_not_mem_cons compact) rests
          exact ⟨rfl, rfl⟩

namespace Operation

theorem solid (operation : Operation) : ' ' ∉ operation.symbol.toList := by
  cases operation with
  | logical connective => cases connective <;> decide
  | relational comparison => cases comparison <;> decide
  | numeric arithmetic => cases arithmetic <;> decide

theorem symbol_ne_question (operation : Operation) : operation.symbol.toList ≠ ['?'] := by
  cases operation with
  | logical connective => cases connective <;> decide
  | relational comparison => cases comparison <;> decide
  | numeric arithmetic => cases arithmetic <;> decide

theorem symbol_injective {left right : Operation} (same : left.symbol = right.symbol) :
    left = right := by
  have found := left.ofSymbol?_symbol
  rw [same, right.ofSymbol?_symbol] at found
  exact (Option.some.inj found).symm

end Operation

def Number.Nonneg (number : Number) : Prop := 0 ≤ number.value

def Number.lead : Number → Char
  | .int _ => '0'
  | .truth holds => if holds then 'T' else 'F'

theorem Number.lead_ne (number : Number) {character : Char}
    (outside : character ∉ ['0', 'T', 'F']) : number.lead ≠ character := by
  rintro rfl
  cases number with
  | int value => exact outside (by simp [lead])
  | truth holds => cases holds <;> exact outside (by simp [lead])

namespace Formula

def bracketed (enclosed : Bool) (text : List Char) : List Char :=
  if enclosed then '(' :: (text ++ [')']) else text

/-- The characters of the text of a formula; a foreign leaf has none. -/
def script (nested : Bool) : Formula → List Char
  | .literal _ number => number.text.toList
  | .quantity _ => ['n']
  | .unary _ operator operand =>
      bracketed (nested && operator = .negation) (operator.symbol.toList ++ operand.script true)
  | .binary _ operator left right =>
      bracketed nested
        (left.script true ++ (' ' :: (operator.symbol.toList ++ ' ' :: right.script true)))
  | .choice _ condition consequent alternate =>
      bracketed nested (condition.script true ++
        (' ' :: '?' :: ' ' :: (consequent.script true ++
          (' ' :: ':' :: ' ' :: alternate.script true))))
  | .foreign _ => []

theorem toList_parenthesized (enclosed : Bool) (text : String) :
    (parenthesized enclosed text).toList = bracketed enclosed text.toList := by
  cases enclosed <;> simp [parenthesized, bracketed]

theorem renderPart_eq_script [Writing] {formula : Formula} (rendered : formula.Rendered)
    (nested : Bool) :
    formula.renderPart nested = .ok (String.ofList (formula.script nested)) := by
  obtain ⟨genuine, narrow⟩ := rendered
  induction formula generalizing nested with
  | literal position number =>
      have short : Text.Narrow number.value := narrow
      rw [renderPart, number.written?_eq, if_pos short, script, String.ofList_toList]
      rfl
  | quantity position => rfl
  | unary position operator operand ih =>
      rw [renderPart, ih true genuine narrow]
      refine congrArg Except.ok (String.toList_inj.mp ?_)
      simp [toList_parenthesized, script]
  | binary position operator left right leftIh rightIh =>
      rw [renderPart, leftIh true genuine.1 narrow.1, rightIh true genuine.2 narrow.2]
      refine congrArg Except.ok (String.toList_inj.mp ?_)
      simp [toList_parenthesized, script]
  | choice position condition consequent alternate firstIh secondIh thirdIh =>
      rw [renderPart, firstIh true genuine.1 narrow.1, secondIh true genuine.2.1 narrow.2.1,
        thirdIh true genuine.2.2 narrow.2.2]
      refine congrArg Except.ok (String.toList_inj.mp ?_)
      simp [toList_parenthesized, script]
  | foreign leaf => exact absurd genuine id

def mark (character : Char) : Char := if isDigit character then '0' else character

def lead : Formula → Char
  | .literal _ number => number.lead
  | .quantity _ => 'n'
  | .unary _ .sign _ => '-'
  | _ => '('

variable {left right formula : Formula} {behind beyond : List Char}

theorem script_literal (position : Int) (number : Nat) (nested : Bool) :
    script nested (.literal position (.int number)) = Nat.toDigits 10 number :=
  String.toList_ofList

theorem script_lead (known : formula.Known Number.Nonneg) :
    ∃ first rest, formula.script true = first :: rest ∧ mark first = formula.lead := by
  cases formula with
  | literal position number =>
      cases number with
      | int value =>
          obtain ⟨number, rfl⟩ := Int.eq_ofNat_of_zero_le known
          obtain ⟨first, rest, spelled, digits⟩ := Text.toDigits_eq_cons number
          rw [script_literal]
          exact ⟨first, rest, spelled, if_pos (digits first List.mem_cons_self)⟩
      | truth holds => cases holds <;> exact ⟨_, _, rfl, rfl⟩
  | unary position operator operand =>
      cases operator with
      | «unknown» symbol strange => exact absurd known.1 id
      | _ => exact ⟨_, _, rfl, rfl⟩
  | foreign leaf => exact absurd known id
  | _ => exact ⟨_, _, rfl, rfl⟩

theorem literal_of_lead {number : Number} (same : formula.lead = number.lead) :
    ∃ position other, formula = .literal position other := by
  have apart (character : Char) (outside : character ∉ ['0', 'T', 'F']) :
      character ≠ number.lead := (number.lead_ne outside).symm
  cases formula with
  | literal position other => exact ⟨position, other, rfl⟩
  | quantity position => exact absurd same (apart 'n' (by decide))
  | unary position operator operand =>
      cases operator with
      | sign => exact absurd same (apart '-' (by decide))
      | _ => exact absurd same (apart '(' (by decide))
  | _ => exact absurd same (apart '(' (by decide))

theorem lead_eq (left right : Formula) (known : left.Known Number.Nonneg)
    (other : right.Known Number.Nonneg)
    (same : left.script true ++ behind = right.script true ++ beyond) :
    left.lead = right.lead := by
  obtain ⟨first, rest, spelled, marked⟩ := script_lead known
  obtain ⟨second, others, written, noted⟩ := script_lead other
  rw [spelled, written] at same
  rw [← marked, ← noted, (List.cons.inj same).1]

theorem script_ne_mark (known : formula.Known Number.Nonneg) :
    formula.script true ++ behind ≠ '!' :: beyond := by
  obtain ⟨first, rest, spelled, marked⟩ := script_lead known
  intro same
  rw [spelled] at same
  obtain rfl := (List.cons.inj same).1
  cases formula with
  | unary position operator operand => cases operator <;> cases marked
  | literal position number => exact absurd marked.symm (number.lead_ne (by decide))
  | _ => cases marked

/-- The known formulas that stand in parentheses as operands. -/
inductive Enclosed : Formula → Prop where
  | negation (position : Int) {operand : Formula} (inner : operand.Known Number.Nonneg) :
      Enclosed (.unary position .negation operand)
  | binary (position : Int) (operation : Operation) {left right : Formula}
      (before : left.Known Number.Nonneg) (after : right.Known Number.Nonneg) :
      Enclosed (.binary position (.known operation) left right)
  | choice (position : Int) {condition consequent alternate : Formula}
      (asked : condition.Known Number.Nonneg) (taken : consequent.Known Number.Nonneg)
      (otherwise : alternate.Known Number.Nonneg) :
      Enclosed (.choice position condition consequent alternate)

theorem Known.enclosed (known : formula.Known Number.Nonneg) (opened : formula.lead = '(') :
    Enclosed formula := by
  cases formula with
  | unary position operator operand =>
      cases operator with
      | negation => exact .negation position known.2
      | sign => cases opened
      | «unknown» symbol strange => exact absurd known.1 id
  | binary position operator left right =>
      cases operator with
      | known operation => exact .binary position operation known.2.1 known.2.2
      | «unknown» symbol strange => exact absurd known.1 id
  | choice position condition consequent alternate =>
      exact .choice position known.1 known.2.1 known.2.2
  | literal position number => exact absurd opened (number.lead_ne (by decide))
  | foreign leaf => exact absurd known id
  | _ => cases opened

def Ended (behind : List Char) : Prop := ∀ next ∈ behind.head?, isDigit next = false

theorem ended_cons {next : Char} (outside : isDigit next = false) : Ended (next :: behind) := by
  intro character same
  obtain rfl := Option.some.inj same
  exact outside

theorem literal_unique {number other : Nat} (ends : Ended behind) (stops : Ended beyond)
    (same : Nat.toDigits 10 number ++ behind = Nat.toDigits 10 other ++ beyond) :
    number = other ∧ behind = beyond := by
  have kept (value : Nat) : ∀ c ∈ Nat.toDigits 10 value, isDigit c = true := by
    obtain ⟨first, rest, spelled, digits⟩ := Text.toDigits_eq_cons value
    exact spelled ▸ digits
  have digits := Token.takeWhile_append_of_stop (kept number) ends
  rw [same, Token.takeWhile_append_of_stop (kept other) stops] at digits
  have value := Text.digitsValue_toDigits number
  rw [← digits, Text.digitsValue_toDigits] at value
  subst value
  exact ⟨rfl, List.append_cancel_left same⟩

theorem script_negation (position : Int) (operand : Formula) (behind : List Char) :
    script true (.unary position .negation operand) ++ behind =
      '(' :: '!' :: (operand.script true ++ ')' :: behind) := by
  simp [script, bracketed, UnaryOperator.symbol]

theorem script_binary (position : Int) (operation : Operation) (left right : Formula)
    (behind : List Char) :
    script true (.binary position (.known operation) left right) ++ behind =
      '(' :: (left.script true ++ ' ' :: (operation.symbol.toList ++ ' ' ::
        (right.script true ++ ')' :: behind))) := by
  simp [script, bracketed, BinaryOperator.symbol]

theorem script_choice (position : Int) (condition consequent alternate : Formula)
    (behind : List Char) :
    script true (.choice position condition consequent alternate) ++ behind =
      '(' :: (condition.script true ++ ' ' :: (['?'] ++ ' ' :: (consequent.script true ++
        ' ' :: ':' :: ' ' :: (alternate.script true ++ ')' :: behind)))) := by
  simp [script, bracketed]

/-- The operand and what is behind it are told from the characters of both. -/
def Decodes (formula : Formula) : Prop :=
  ∀ (other : Formula) (behind beyond : List Char), other.Known Number.Nonneg → Ended behind →
    Ended beyond → formula.script true ++ behind = other.script true ++ beyond →
      formula.Identical other ∧ behind = beyond

namespace Decodes

variable {condition consequent alternate : Formula}

theorem literal (position : Int) {number : Number} (known : number.Nonneg) :
    Decodes (.literal position number) := by
  intro other behind beyond language ends stops same
  have leads := lead_eq (.literal position number) other known language same
  obtain ⟨its, second, rfl⟩ := literal_of_lead leads.symm
  cases number with
  | int value =>
      cases second with
      | int other =>
          obtain ⟨first, rfl⟩ := Int.eq_ofNat_of_zero_le known
          obtain ⟨second, rfl⟩ := Int.eq_ofNat_of_zero_le language
          rw [script_literal, script_literal] at same
          obtain ⟨rfl, rfl⟩ := literal_unique ends stops same
          exact ⟨rfl, rfl⟩
      | truth holds => cases holds <;> cases leads
  | truth holds =>
      cases second with
      | int other => cases holds <;> cases leads
      | truth other =>
          -- The first letter tells the truth values apart.
          cases holds <;> cases other <;>
            first | exact ⟨rfl, List.append_cancel_left same⟩ | cases leads

theorem quantity (position : Int) : Decodes (.quantity position) := by
  intro other behind beyond language ends stops same
  have leads := lead_eq (.quantity position) other trivial language same
  cases other with
  | literal its number =>
      exact absurd leads.symm (number.lead_ne (show 'n' ∉ ['0', 'T', 'F'] by decide))
  | quantity its => exact ⟨rfl, (List.cons.inj same).2⟩
  | unary its operator operand => cases operator <;> cases leads
  | _ => cases leads

theorem sign (position : Int) (known : formula.Known Number.Nonneg) (decodes : Decodes formula) :
    Decodes (.unary position .sign formula) := by
  intro other behind beyond language ends stops same
  have leads := lead_eq (.unary position .sign formula) other ⟨trivial, known⟩ language same
  cases other with
  | unary its operator operand =>
      cases operator with
      | sign =>
          obtain ⟨equal, rfl⟩ :=
            decodes operand behind beyond language.2 ends stops (List.cons.inj same).2
          exact ⟨equal.unary _ _ .sign, rfl⟩
      | _ => cases leads
  | literal its number =>
      exact absurd leads.symm (number.lead_ne (show '-' ∉ ['0', 'T', 'F'] by decide))
  | _ => cases leads

theorem negation (position : Int) (known : formula.Known Number.Nonneg)
    (decodes : Decodes formula) :
    Decodes (.unary position .negation formula) := by
  intro other behind beyond language ends stops same
  have leads := lead_eq (.unary position .negation formula) other ⟨trivial, known⟩ language same
  rw [script_negation] at same
  cases language.enclosed leads.symm with
  | negation its inner =>
      rw [script_negation] at same
      obtain ⟨equal, rests⟩ := decodes _ _ _ inner (ended_cons rfl) (ended_cons rfl)
        (List.cons.inj (List.cons.inj same).2).2
      exact ⟨equal.unary _ _ .negation, (List.cons.inj rests).2⟩
  | binary its operation before after =>
      rw [script_binary] at same
      exact absurd (List.cons.inj same).2.symm (script_ne_mark before)
  | choice its asked taken otherwise =>
      rw [script_choice] at same
      exact absurd (List.cons.inj same).2.symm (script_ne_mark asked)

theorem binary (position : Int) (operation : Operation) (known : left.Known Number.Nonneg)
    (beside : right.Known Number.Nonneg) (leftDecodes : Decodes left)
    (rightDecodes : Decodes right) :
    Decodes (.binary position (.known operation) left right) := by
  intro other behind beyond language ends stops same
  have leads := lead_eq (.binary position (.known operation) left right) other
    ⟨trivial, known, beside⟩ language same
  rw [script_binary] at same
  cases language.enclosed leads.symm with
  | negation its inner =>
      rw [script_negation] at same
      exact absurd (List.cons.inj same).2 (script_ne_mark known)
  | binary its other before after =>
      rw [script_binary] at same
      obtain ⟨equal, rests⟩ := leftDecodes _ _ _ before (ended_cons rfl) (ended_cons rfl)
        (List.cons.inj same).2
      obtain ⟨symbols, operands⟩ :=
        append_blank_inj operation.solid other.solid (List.cons.inj rests).2
      obtain rfl := Operation.symbol_injective (String.toList_inj.mp symbols)
      obtain ⟨alike, closed⟩ := rightDecodes _ _ _ after (ended_cons rfl) (ended_cons rfl) operands
      exact ⟨equal.binary alike _ _ _, (List.cons.inj closed).2⟩
  | choice its asked taken otherwise =>
      rw [script_choice] at same
      obtain ⟨-, rests⟩ := leftDecodes _ _ _ asked (ended_cons rfl) (ended_cons rfl)
        (List.cons.inj same).2
      have symbols := append_blank_inj operation.solid (by decide) (List.cons.inj rests).2
      exact absurd symbols.1 operation.symbol_ne_question

theorem choice (position : Int) (asked : condition.Known Number.Nonneg)
    (taken : consequent.Known Number.Nonneg) (otherwise : alternate.Known Number.Nonneg)
    (first : Decodes condition) (second : Decodes consequent) (third : Decodes alternate) :
    Decodes (.choice position condition consequent alternate) := by
  intro other behind beyond language ends stops same
  have leads := lead_eq (.choice position condition consequent alternate) other
    ⟨asked, taken, otherwise⟩ language same
  rw [script_choice] at same
  cases language.enclosed leads.symm with
  | negation its inner =>
      rw [script_negation] at same
      exact absurd (List.cons.inj same).2 (script_ne_mark asked)
  | binary its operation before after =>
      rw [script_binary] at same
      obtain ⟨-, rests⟩ := first _ _ _ before (ended_cons rfl) (ended_cons rfl)
        (List.cons.inj same).2
      have symbols := append_blank_inj (by decide) operation.solid (List.cons.inj rests).2
      exact absurd symbols.1.symm operation.symbol_ne_question
  | choice its inner middle final =>
      rw [script_choice] at same
      obtain ⟨equal, rests⟩ := first _ _ _ inner (ended_cons rfl) (ended_cons rfl)
        (List.cons.inj same).2
      have branches := List.append_cancel_left (List.cons.inj rests).2
      obtain ⟨alike, remaining⟩ := second _ _ _ middle (ended_cons rfl) (ended_cons rfl)
        (List.cons.inj branches).2
      simp only [List.cons.injEq, true_and] at remaining
      obtain ⟨similar, closed⟩ := third _ _ _ final (ended_cons rfl) (ended_cons rfl) remaining
      exact ⟨equal.choice alike similar _ _, (List.cons.inj closed).2⟩

end Decodes

theorem Known.decodes (known : formula.Known Number.Nonneg) : Decodes formula := by
  induction formula with
  | literal position number => exact .literal position known
  | quantity position => exact .quantity position
  | unary position operator operand ih =>
      cases operator with
      | negation => exact .negation position known.2 (ih known.2)
      | sign => exact .sign position known.2 (ih known.2)
      | «unknown» symbol strange => exact absurd known.1 id
  | binary position operator left right leftIh rightIh =>
      cases operator with
      | known operation =>
          exact .binary position operation known.2.1 known.2.2 (leftIh known.2.1)
            (rightIh known.2.2)
      | «unknown» symbol strange => exact absurd known.1 id
  | choice position condition consequent alternate firstIh secondIh thirdIh =>
      exact .choice position known.1 known.2.1 known.2.2 (firstIh known.1) (secondIh known.2.1)
        (thirdIh known.2.2)
  | foreign leaf => exact absurd known id

theorem Known.script_true (known : formula.Known Number.Nonneg) :
    formula.script true = bracketed (formula.lead = '(') (formula.script false) := by
  cases formula with
  | unary position operator operand =>
      cases operator with
      | «unknown» symbol strange => exact absurd known.1 id
      | _ => rfl
  | literal position number =>
      rw [lead, decide_eq_false (number.lead_ne (by decide))]
      rfl
  | foreign leaf => exact absurd known id
  | _ => rfl

/-- Without its parentheses a text goes on behind its first operand, or it is marked. -/
theorem script_ne_unenclosed (known : left.Known Number.Nonneg) (other : right.Known Number.Nonneg)
    (opened : right.lead = '(') : left.script true ≠ right.script false := by
  intro same
  rw [← List.append_nil (left.script true)] at same
  have nothing : Ended [] := by simp [Ended]
  cases other.enclosed opened with
  | negation position inner => exact script_ne_mark known same
  | binary position operation before after =>
      obtain ⟨-, rests⟩ := known.decodes _ _ _ before nothing (ended_cons rfl) same
      cases rests
  | choice position asked taken otherwise =>
      obtain ⟨-, rests⟩ := known.decodes _ _ _ asked nothing (ended_cons rfl) same
      cases rests

/-- Known formulas with one text are the same but for their places. -/
theorem Known.identical_of_render [Writing] {text : String} (known : left.Known Number.Nonneg)
    (other : right.Known Number.Nonneg) (rendered : left.render = .ok text)
    (alike : right.render = .ok text) : left.Identical right := by
  have scripts : left.script false = right.script false := by
    have first := renderPart_eq_script ((render_ok_iff left).mp ⟨text, rendered⟩) false
    have second := renderPart_eq_script ((render_ok_iff right).mp ⟨text, alike⟩) false
    rw [render, first] at rendered
    rw [render, second, ← rendered] at alike
    exact (String.ofList_injective (Except.ok.inj alike)).symm
  have operands : left.script true = right.script true := by
    by_cases opened : left.lead = '('
    · by_cases enclosed : right.lead = '('
      · rw [known.script_true, other.script_true, scripts, opened, enclosed]
      · refine absurd ?_ (script_ne_unenclosed other known opened)
        simp [other.script_true, enclosed, bracketed, scripts]
    · by_cases enclosed : right.lead = '('
      · refine absurd ?_ (script_ne_unenclosed known other enclosed)
        simp [known.script_true, opened, bracketed, scripts]
      · simp [known.script_true, other.script_true, opened, enclosed, scripts]
  have nothing : Ended [] := by simp [Ended]
  exact (known.decodes right [] [] other nothing nothing (by rw [operands])).1

end Formula

end PluralRule
