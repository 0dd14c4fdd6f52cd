import PluralRule.Formula.Reader
import PluralRule.Proofs.Reading.Levels
import PluralRule.Proofs.Reading.Sound

/-!
What is accepted. A list of plain tokens before an end is read as a formula
exactly when the grammar derives the formula from it and the limits allow its
nesting, its nodes and its depth. Main statement: with limits above the number
of tokens, reading and deriving are the same, and whatever is not derived is
refused for a token that does not fit or a number that is no word.
-/

namespace PluralRule

/-- The report is on a token that does not fit or on a number without a literal. -/
def Fault.Syntactic (fault : Fault) : Prop :=
  ∀ (_ : Writing) (source : String), ∃ report, fault.report source = some report ∧
    (report.kind = "syntax-error" ∨ report.kind = "literal-overflow")

theorem Fault.syntactic_unexpected (expected : Expectation) (found : Token) :
    (Fault.unexpected expected found).Syntactic := fun _ _ => ⟨_, rfl, Or.inl rfl⟩

theorem Fault.syntactic_literal (token : Token) : (Fault.literal token).Syntactic :=
  fun _ _ => ⟨_, rfl, Or.inr rfl⟩

theorem append_finish_cases {tokens before rest : List Token} {finish token : Token}
    (split : tokens ++ [finish] = before ++ token :: rest) :
    (before = tokens ∧ token = finish) ∨ ∃ behind, tokens = before ++ token :: behind := by
  rcases List.eq_nil_or_concat rest with rfl | ⟨front, last, rfl⟩
  · rcases List.append_inj' split rfl with ⟨same, one⟩
    exact Or.inl ⟨same.symm, (List.cons.inj one).1.symm⟩
  · rw [List.concat_eq_append, ← List.cons_append, ← List.append_assoc] at split
    exact Or.inr ⟨front, List.append_inj_left' split rfl⟩

/-- The tokens before lead to a reading that stops at the token with the fault. -/
structure Blames (limits : Limits) (before : List Token) (token : Token) (middle : Reading)
    (fault : Fault) : Prop where
  led : Reading.initial.follow limits before = .next middle
  stops : ∀ (larger : Limits) (rest : List Token),
    (middle.run larger (token :: rest)).1 = .error fault
  named : fault = .unexpected middle.expected token ∨
    (fault = .literal token ∧ middle.expected = .operand)

theorem Blames.syntactic {limits : Limits} {before : List Token} {token : Token}
    {middle : Reading} {fault : Fault} (blames : Blames limits before token middle fault) :
    fault.Syntactic := by
  rcases blames.named with rfl | ⟨rfl, -⟩
  · exact Fault.syntactic_unexpected _ _
  · exact Fault.syntactic_literal _

namespace Reading

/-- How a run through tokens and an end comes out: with a formula, at a token
that is blamed, or at the first level of nesting that is too deep. -/
inductive Outcome (limits : Limits) (tokens : List Token) (finish : Token) :
    Except Fault Formula → Prop where
  | formula {formula : Formula} {nesting : Nat} (phrase : Phrase .choice tokens formula nesting)
      (admitted : limits.Admits 0 nesting) : Outcome limits tokens finish (.ok formula)
  | blame {before rest : List Token} {token : Token} {middle : Reading} {fault : Fault}
      (split : tokens ++ [finish] = before ++ token :: rest)
      (blames : Blames limits before token middle fault) :
      Outcome limits tokens finish (.error fault)
  | limit {level : Nat} (exceeds : limits.maxDepth < (level : Int))
      (reached : level ≤ tokens.length + 1) :
      Outcome limits tokens finish (.error (.limit ⟨.depth, limits.maxDepth, level⟩))

variable {limits : Limits} {tokens : List Token} {finish : Token}

theorem phrase_of_final (plain : ∀ token ∈ tokens, token.Plain) {middle : Reading}
    {formula : Formula} (led : initial.follow limits tokens = .next middle)
    (final : Final finish middle formula) :
    ∃ nesting, Phrase .choice tokens formula nesting ∧ limits.Admits 0 nesting := by
  have built : middle.Built tokens := built_initial.follow plain led
  rcases final.phrase built with ⟨nesting, phrase⟩
  refine ⟨nesting, phrase, ?_⟩
  by_cases admitted : limits.Admits 0 nesting
  · exact admitted
  · -- Had the limits refused the nesting, the run would not have reached the end.
    have refused := (phrase.performs limits .outermost).exceeds admitted
    rw [initial, refused] at led
    cases led

theorem run_outcome (limits : Limits) (plain : ∀ token ∈ tokens, token.Plain)
    (ends : finish.kind = .finish) :
    Outcome limits tokens finish (initial.run limits (tokens ++ [finish])).1 := by
  rcases exists_stop limits initial tokens finish ends with
    ⟨before, token, rest, middle, split, led, stuck⟩
  rw [split]
  rcases stops_or_exceeds stuck with stops | ⟨following, move, exceeds, failed⟩
  · cases stops with
    | final whole final =>
        rw [run_of_final rest led final]
        have spelled : token.kind = .finish := by
          cases final
          assumption
        rcases append_finish_cases split with ⟨rfl, rfl⟩ | ⟨behind, rfl⟩
        · rcases phrase_of_final plain led final with ⟨nesting, phrase, admitted⟩
          exact .formula phrase admitted
        · exact absurd spelled (plain token (by simp)).1
    | blame unfit =>
        rw [run_of_blame rest led (unfit limits)]
        refine .blame split ⟨led, ?_, Or.inl rfl⟩
        intro larger tail
        simp only [run, unfit larger]
    | literal expects overflows =>
        rw [run_of_fail rest led (overflows limits)]
        refine .blame split ⟨led, ?_, Or.inr ⟨rfl, expects⟩⟩
        intro larger tail
        simp only [run, overflows larger]
  · rw [run_of_fail rest led failed]
    refine .limit exceeds ?_
    -- Each token that was taken has added one level at most.
    have counted := congrArg List.length split
    have flat : initial.nesting = 0 := rfl
    have reached := nesting_follow_le led
    have once := move.nesting_le
    simp only [List.length_append, List.length_cons, List.length_nil] at counted
    omega

theorem run_eq_ok_iff (plain : ∀ token ∈ tokens, token.Plain) (ends : finish.kind = .finish)
    (formula : Formula) :
    (initial.run limits (tokens ++ [finish])).1 = .ok formula ↔
      ∃ nesting, Phrase .choice tokens formula nesting ∧ limits.Admits 0 nesting := by
  constructor
  · intro read
    have outcome := run_outcome limits plain ends
    rw [read] at outcome
    cases outcome with
    | formula phrase admitted => exact ⟨_, phrase, admitted⟩
  · rintro ⟨nesting, phrase, admitted⟩
    exact congrArg Prod.fst (phrase.run_eq_ok limits ends [] admitted)

theorem run_syntactic (plain : ∀ token ∈ tokens, token.Plain) (ends : finish.kind = .finish)
    (deep : (tokens.length : Int) + 1 ≤ limits.maxDepth)
    (underived : ¬ ∃ formula nesting, Phrase .choice tokens formula nesting) :
    ∃ fault, (initial.run limits (tokens ++ [finish])).1 = .error fault ∧ fault.Syntactic := by
  have outcome := run_outcome limits plain ends
  cases read : (initial.run limits (tokens ++ [finish])).1 with
  | ok formula =>
      rw [read] at outcome
      cases outcome with
      | formula phrase admitted => exact absurd ⟨formula, _, phrase⟩ underived
  | error fault =>
      rw [read] at outcome
      cases outcome with
      | blame split blames => exact ⟨fault, rfl, blames.syntactic⟩
      | limit exceeds reached => omega

end Reading

namespace Formula

variable {limits : Limits} {tokens : List Token} {finish : Token}

theorem ofTokens_eq_bind (limits : Limits) (tokens : List Token) :
    ofTokens limits tokens = (Reading.initial.run limits tokens).1.bind (measured limits) := by
  simp only [ofTokens, Reader.start, Reader.run, Reading.counted_initial]

theorem measured_eq (limits : Limits) (formula : Formula) :
    measured limits formula =
      if limits.maxNodes < formula.nodeCount then
        .error (.limit ⟨.nodes, limits.maxNodes, formula.nodeCount⟩)
      else if limits.maxDepth < formula.treeDepth then
        .error (.limit ⟨.depth, limits.maxDepth, formula.treeDepth⟩)
      else .ok formula := by
  by_cases wide : limits.maxNodes < formula.nodeCount
  · have exceeded : limits.check .nodes formula.nodeCount =
        .error ⟨.nodes, limits.maxNodes, formula.nodeCount⟩ := if_pos wide
    rw [measured, exceeded, if_pos wide]
  · have narrow : limits.check .nodes formula.nodeCount = .ok () := if_neg wide
    rw [measured, narrow, if_neg wide]
    by_cases deep : limits.maxDepth < formula.treeDepth
    · have exceeded : limits.check .depth formula.treeDepth =
          .error ⟨.depth, limits.maxDepth, formula.treeDepth⟩ := if_pos deep
      simp only [exceeded, if_pos deep]
    · have shallow : limits.check .depth formula.treeDepth = .ok () := if_neg deep
      simp only [shallow, if_neg deep]

theorem measured_eq_ok_or_limit (limits : Limits) (formula : Formula) :
    measured limits formula = .ok formula ∨
      ∃ breach, measured limits formula = .error (.limit breach) := by
  unfold measured
  split
  · next breach exceeded => exact Or.inr ⟨breach, rfl⟩
  · split
    · next breach exceeded => exact Or.inr ⟨breach, rfl⟩
    · exact Or.inl rfl

theorem ofTokens_eq_ok_iff (plain : ∀ token ∈ tokens, token.Plain)
    (ends : finish.kind = .finish) (formula : Formula) :
    ofTokens limits (tokens ++ [finish]) = .ok formula ↔
      ∃ nesting, Phrase .choice tokens formula nesting ∧ limits.Admits 0 nesting ∧
        (formula.size : Int) ≤ limits.maxNodes ∧ (formula.depth : Int) ≤ limits.maxDepth := by
  rw [ofTokens_eq_bind]
  constructor
  · intro read
    cases run : (Reading.initial.run limits (tokens ++ [finish])).1 with
    | error fault =>
        rw [run] at read
        cases read
    | ok whole =>
        rw [run] at read
        rcases (measured_eq_ok_iff limits whole formula).mp read with ⟨rfl, narrow, shallow⟩
        rcases (Reading.run_eq_ok_iff plain ends whole).mp run with ⟨nesting, phrase, admitted⟩
        exact ⟨nesting, phrase, admitted, narrow, shallow⟩
  · rintro ⟨nesting, phrase, admitted, narrow, shallow⟩
    rw [(Reading.run_eq_ok_iff plain ends formula).mpr ⟨nesting, phrase, admitted⟩]
    exact (measured_eq_ok_iff limits formula formula).mpr ⟨rfl, narrow, shallow⟩

/-- Where the limits have room for every token, exactly the phrases are read. -/
theorem ofTokens_eq_ok_iff_phrase (plain : ∀ token ∈ tokens, token.Plain)
    (ends : finish.kind = .finish) (deep : (tokens.length : Int) + 1 ≤ limits.maxDepth)
    (wide : (tokens.length : Int) + 1 ≤ limits.maxNodes) (formula : Formula) :
    ofTokens limits (tokens ++ [finish]) = .ok formula ↔
      ∃ nesting, Phrase .choice tokens formula nesting := by
  rw [ofTokens_eq_ok_iff plain ends]
  constructor
  · rintro ⟨nesting, phrase, -⟩
    exact ⟨nesting, phrase⟩
  · rintro ⟨nesting, phrase⟩
    have nested := phrase.nesting_lt_length
    have sized := phrase.size_le_length
    have measured := formula.depth_le_size
    exact ⟨nesting, phrase, Or.inr (by omega), by omega, by omega⟩

end Formula

theorem Phrase.unique {tokens : List Token} {first second : Formula} {outer inner : Nat}
    (firstPhrase : Phrase .choice tokens first outer)
    (secondPhrase : Phrase .choice tokens second inner) : first = second := by
  have ends : (Token.finish 0).kind = .finish := rfl
  have outer_le : ((0 + outer : Nat) : Int) ≤ outer + inner := by omega
  have inner_le : ((0 + inner : Nat) : Int) ≤ outer + inner := by omega
  have read := firstPhrase.run_eq_ok ⟨0, outer + inner, 0⟩ ends [] (Or.inr outer_le)
  have again := secondPhrase.run_eq_ok ⟨0, outer + inner, 0⟩ ends [] (Or.inr inner_le)
  rw [read] at again
  cases again
  rfl

/-- Reading accepts exactly what the grammar derives, and builds what it derives. -/
theorem ofTokens_iff_spells (limits : Limits) (tokens : List Token) (finish : Token)
    (plain : ∀ token ∈ tokens, token.Plain) (ends : finish.kind = .finish)
    (deep : (tokens.length : Int) + 1 ≤ limits.maxDepth)
    (wide : (tokens.length : Int) + 1 ≤ limits.maxNodes) :
    (∀ formula, (∃ read, Formula.ofTokens limits (tokens ++ [finish]) = .ok read ∧
        read.Identical formula) ↔ Spells tokens formula) ∧
      (∀ first second, Spells tokens first → Spells tokens second → first.Identical second) ∧
      ((¬ ∃ formula, Spells tokens formula) →
        ∃ fault, Formula.ofTokens limits (tokens ++ [finish]) = .error fault ∧
          fault.Syntactic) := by
  have reads := Formula.ofTokens_eq_ok_iff_phrase plain ends deep wide
  constructor
  · intro formula
    constructor
    · rintro ⟨read, accepted, same⟩
      rcases (reads read).mp accepted with ⟨nesting, phrase⟩
      exact ⟨read, nesting, phrase, same⟩
    · rintro ⟨placed, nesting, phrase, same⟩
      exact ⟨placed, (reads placed).mpr ⟨nesting, phrase⟩, same⟩
  constructor
  · rintro first second ⟨left, outer, leftPhrase, leftSame⟩ ⟨right, inner, rightPhrase, rightSame⟩
    rw [leftPhrase.unique rightPhrase] at leftSame
    exact leftSame.symm.trans rightSame
  · intro underived
    have none : ¬ ∃ formula nesting, Phrase .choice tokens formula nesting := by
      rintro ⟨formula, nesting, phrase⟩
      exact underived ⟨formula, formula, nesting, phrase, .refl formula⟩
    rcases Reading.run_syntactic plain ends deep none with ⟨fault, failed, syntactic⟩
    exact ⟨fault, by rw [Formula.ofTokens_eq_bind, failed]; rfl, syntactic⟩

/-- The tokens of `!n+10?n:1`, in which the negation reaches over the sum. -/
def negatedSum : List Token :=
  [⟨.not, "!", 0⟩, ⟨.quantity, "n", 1⟩, ⟨.plus, "+", 2⟩, ⟨.number, "10", 3⟩, ⟨.question, "?", 5⟩,
    ⟨.quantity, "n", 6⟩, ⟨.colon, ":", 7⟩, ⟨.number, "1", 8⟩]

theorem ofTokens_iff_spells_negatedSum :
    (∀ token ∈ negatedSum, token.Plain) ∧
      Spells negatedSum (.choice 0
        (.unary 0 .negation
          (.binary 2 (.known (.numeric .sum)) (.quantity 1) (.literal 3 (.int 10))))
        (.quantity 6) (.literal 8 (.int 1))) := by
  have plain : ∀ token ∈ negatedSum, token.Plain := by decide
  have reads := ofTokens_iff_spells ⟨0, 9, 9⟩ negatedSum (Token.finish 9) plain rfl
    (by decide) (by decide)
  refine ⟨plain, (reads.1 _).mp ⟨_, ?_, .refl _⟩⟩
  exact (Formula.measured_eq_ok_iff _ _ _).mpr ⟨rfl, by decide, by decide⟩

end PluralRule
