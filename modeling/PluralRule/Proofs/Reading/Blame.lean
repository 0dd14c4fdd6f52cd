import PluralRule.Proofs.Reading.Acceptance
import PluralRule.Proofs.Reading.Completion

/-!
Which token is blamed. A reading that stops has taken as many tokens as any
formula can begin with, and what it asks for instead of the token could stand
there. Main statement: the token at the place of a fault is the earliest that
no formula can have there, and the expectation in the report is met by a token
of its kind.
-/

namespace PluralRule

def Limits.Roomy (limits : Limits) (tokens : List Token) : Prop :=
  (tokens.length : Int) + 1 ≤ limits.maxDepth ∧ (tokens.length : Int) + 1 ≤ limits.maxNodes

/-- The tokens are read as a formula wherever the limits have room for them. -/
def Accepted (tokens : List Token) : Prop :=
  ∀ limits finish, finish.kind = .finish → limits.Roomy tokens →
    ∃ formula, Formula.ofTokens limits (tokens ++ [finish]) = .ok formula

def Rejected (tokens : List Token) : Prop :=
  ∀ limits finish formula, finish.kind = .finish →
    Formula.ofTokens limits (tokens ++ [finish]) ≠ .ok formula

/-- Any token of the kind may follow the tokens, and plain tokens complete them behind it. -/
def Welcome (before : List Token) (kind : Token.Kind) : Prop :=
  ∀ token : Token, token.kind = kind →
    ∃ continuation, (∀ other ∈ continuation, other.Plain) ∧
      Accepted (before ++ token :: continuation)

def Expectation.Honest (before : List Token) : Expectation → Prop
  | .operand => Welcome before .quantity
  | .colon => Welcome before .colon
  | .closing => Welcome before .closing
  | .finish => Accepted before

inductive HonestText (before : List Token) : String → Prop where
  | operand (welcome : Welcome before .quantity) : HonestText before "expression"
  | colon (welcome : Welcome before .colon) : HonestText before "':' in ternary expression"
  | closing (welcome : Welcome before .closing) : HonestText before "')' after expression"
  | finish (accepted : Accepted before) : HonestText before "end of expression"

theorem Expectation.Honest.text {before : List Token} {expectation : Expectation}
    (honest : expectation.Honest before) : HonestText before expectation.wording := by
  cases expectation with
  | operand => exact .operand honest
  | colon => exact .colon honest
  | closing => exact .closing honest
  | finish => exact .finish honest

theorem accepted_of_run {limits : Limits} {tokens : List Token} {finish : Token}
    {formula : Formula} (plain : ∀ token ∈ tokens, token.Plain) (ends : finish.kind = .finish)
    (read : (Reading.initial.run limits (tokens ++ [finish])).1 = .ok formula) :
    Accepted tokens := by
  rcases (Reading.run_eq_ok_iff plain ends formula).mp read with ⟨nesting, phrase, -⟩
  rintro roomy last final ⟨deep, wide⟩
  exact ⟨formula,
    (Formula.ofTokens_eq_ok_iff_phrase plain final deep wide formula).mpr ⟨nesting, phrase⟩⟩

theorem Fault.not_syntactic_limit (breach : Breach) : ¬ (Fault.limit breach).Syntactic := by
  intro syntactic
  let writing := Writing.standard
  obtain ⟨report, reported, kinds⟩ := syntactic writing ""
  simp only [Fault.report, Report.ofBreach, Report.limitExceeded, Option.bind_eq_bind,
    Option.bind_eq_some_iff, Option.some.injEq] at reported
  obtain ⟨limit, -, actual, -, rfl⟩ := reported
  rcases kinds with kind | kind
  · exact absurd (show "limit-exceeded" = "syntax-error" from kind) (by decide)
  · exact absurd (show "limit-exceeded" = "literal-overflow" from kind) (by decide)

theorem blames_or_limit {limits : Limits} {tokens : List Token} {finish : Token} {fault : Fault}
    (plain : ∀ token ∈ tokens, token.Plain) (ends : finish.kind = .finish)
    (refused : Formula.ofTokens limits (tokens ++ [finish]) = .error fault) :
    (∃ before token rest middle, tokens ++ [finish] = before ++ token :: rest ∧
        Blames limits before token middle fault) ∨ ∃ breach, fault = .limit breach := by
  have outcome := Reading.run_outcome limits plain ends
  rw [Formula.ofTokens_eq_bind] at refused
  cases read : (Reading.initial.run limits (tokens ++ [finish])).1 with
  | ok whole =>
      rw [read] at refused
      rcases Formula.measured_eq_ok_or_limit limits whole with accepted | ⟨breach, limited⟩
      · cases accepted.symm.trans refused
      · cases limited.symm.trans refused
        exact Or.inr ⟨breach, rfl⟩
  | error other =>
      rw [read] at refused outcome
      cases refused
      cases outcome with
      | blame split blames => exact Or.inl ⟨_, _, _, _, split, blames⟩
      | limit exceeds reached => exact Or.inr ⟨_, rfl⟩

/-- Neither nesting nor the measures of a formula are faults of its tokens. -/
theorem exists_blames {limits : Limits} {tokens : List Token} {finish : Token} {fault : Fault}
    (plain : ∀ token ∈ tokens, token.Plain) (ends : finish.kind = .finish)
    (refused : Formula.ofTokens limits (tokens ++ [finish]) = .error fault)
    (syntactic : fault.Syntactic) :
    ∃ before token rest middle, tokens ++ [finish] = before ++ token :: rest ∧
      Blames limits before token middle fault := by
  rcases blames_or_limit plain ends refused with blamed | ⟨breach, rfl⟩
  · exact blamed
  · exact absurd syntactic (Fault.not_syntactic_limit breach)

theorem plain_of_expected {expectation : Expectation} {token : Token}
    (more : expectation ≠ .finish) (spelled : token.kind = expectation.kind) : token.Plain := by
  cases expectation <;> simp_all [Token.Plain, Expectation.kind]

namespace Blames

variable {limits : Limits} {before : List Token} {token : Token} {middle : Reading} {fault : Fault}

theorem not_run (blames : Blames limits before token middle fault) (larger : Limits)
    (rest : List Token) (formula : Formula) :
    (Reading.initial.run larger (before ++ token :: rest)).1 ≠ .ok formula := by
  intro accepted
  -- Both runs are compared under limits that allow what either of them was allowed.
  let widest : Limits := ⟨0, max limits.maxDepth larger.maxDepth, 0⟩
  have read : (Reading.initial.run widest (before ++ token :: rest)).1 = .ok formula :=
    Reading.run_of_wider (Int.le_max_right _ _) accepted
  have led : Reading.initial.follow widest before = .next middle :=
    Reading.follow_of_wider (Int.le_max_left _ _) blames.led
  rw [Reading.run_of_follow_next _ led, blames.stops widest rest] at read
  cases read

theorem not_ofTokens (blames : Blames limits before token middle fault) (larger : Limits)
    (rest : List Token) (formula : Formula) :
    Formula.ofTokens larger (before ++ token :: rest) ≠ .ok formula := by
  rw [Formula.ofTokens_eq_bind]
  cases outcome : (Reading.initial.run larger (before ++ token :: rest)).1 with
  | ok whole => exact absurd outcome (blames.not_run larger rest whole)
  | error other =>
      intro impossible
      cases impossible

theorem rejected (blames : Blames limits before token middle fault) (continuation : List Token) :
    Rejected (before ++ [token] ++ continuation) := by
  intro larger finish formula _
  have refused := blames.not_ofTokens larger (continuation ++ [finish]) formula
  simpa using refused

theorem rejected_of_end (blames : Blames limits before token middle fault)
    (plain : ∀ other ∈ before, other.Plain) (ends : token.kind = .finish) : Rejected before := by
  intro larger finish formula final read
  obtain ⟨nesting, phrase, admitted, -⟩ :=
    (Formula.ofTokens_eq_ok_iff plain final formula).mp read
  have again := (Reading.run_eq_ok_iff plain ends formula).mpr ⟨nesting, phrase, admitted⟩
  exact blames.not_run larger [] formula again

theorem honest (blames : Blames limits before token middle fault)
    (plain : ∀ other ∈ before, other.Plain) : middle.expected.Honest before := by
  -- Limits with room for the reading, under which the tokens still lead to it.
  let roomy : Limits := ⟨0, max limits.maxDepth middle.nesting, 0⟩
  have room : (middle.nesting : Int) ≤ roomy.maxDepth := Int.le_max_right _ _
  have led : Reading.initial.follow roomy before = .next middle :=
    Reading.follow_of_wider (Int.le_max_left _ _) blames.led
  have ends : (Token.finish 0).kind = .finish := rfl
  have welcome (more : middle.expected ≠ .finish) : Welcome before middle.expected.kind := by
    intro other spelled
    rcases Reading.continues_expected more spelled room with ⟨continuation, plainly, accepts⟩
    rcases accepts (Token.finish 0) ends with ⟨formula, read⟩
    rw [← Reading.run_of_follow_next _ led] at read
    have later := List.forall_mem_cons.mpr ⟨plain_of_expected more spelled, plainly⟩
    have whole := List.forall_mem_append.mpr ⟨plain, later⟩
    have regrouped : before ++ ([other] ++ continuation ++ [Token.finish 0]) =
        before ++ other :: continuation ++ [Token.finish 0] := by simp
    rw [regrouped] at read
    exact ⟨continuation, plainly, accepted_of_run whole ends read⟩
  cases expects : middle.expected with
  | operand =>
      rw [expects] at welcome
      exact welcome (by decide)
  | colon =>
      rw [expects] at welcome
      exact welcome (by decide)
  | closing =>
      rw [expects] at welcome
      exact welcome (by decide)
  | finish =>
      have ended : ∃ formula, (middle.run roomy [Token.finish 0]).1 = .ok formula :=
        Reading.run_expected_finish expects ends
      rcases ended with ⟨formula, read⟩
      rw [← Reading.run_of_follow_next _ led] at read
      exact accepted_of_run plain ends read

end Blames

theorem Welcome.viable {before : List Token} {kind : Token.Kind} (welcome : Welcome before kind)
    (plain : (Token.word kind).Plain) :
    ∃ continuation, (∀ other ∈ continuation, other.Plain) ∧ Accepted (before ++ continuation) := by
  rcases welcome (.word kind) rfl with ⟨continuation, plainly, accepted⟩
  exact ⟨.word kind :: continuation, List.forall_mem_cons.mpr ⟨plain, plainly⟩, accepted⟩

theorem Expectation.Honest.viable {before : List Token} {expectation : Expectation}
    (honest : expectation.Honest before) :
    ∃ continuation, (∀ other ∈ continuation, other.Plain) ∧ Accepted (before ++ continuation) := by
  cases expectation with
  | operand => exact Welcome.viable honest (by decide)
  | colon => exact Welcome.viable honest (by decide)
  | closing => exact Welcome.viable honest (by decide)
  | finish =>
      refine ⟨[], by simp, ?_⟩
      rw [List.append_nil]
      exact honest

theorem position_eq_iff {all before rest : List Token} {token : Token}
    (distinct : (all.map Token.position).Nodup) (split : all = before ++ token :: rest)
    (other : Nat) :
    (all[other]?).map Token.position = some token.position ↔ other = before.length := by
  have placed : (all.map Token.position)[before.length]? = some token.position := by
    simp [split]
  have inside : before.length < (all.map Token.position).length := by
    simp [split]
  rw [← List.getElem?_map, ← placed, eq_comm, List.getElem?_inj inside distinct, eq_comm]

/-- A fault of the grammar or of a literal stands at the earliest token that no
formula can have there, and what is asked for instead could stand there. -/
theorem ofTokens_blames (limits : Limits) (tokens : List Token) (finish : Token) (fault : Fault)
    (source : String) (plain : ∀ token ∈ tokens, token.Plain) (ends : finish.kind = .finish)
    (distinct : ((tokens ++ [finish]).map Token.position).Nodup)
    (refused : Formula.ofTokens limits (tokens ++ [finish]) = .error fault)
    (syntactic : fault.Syntactic) :
    ∃ index report, (∀ [Writing], fault.report source = some report) ∧
      (∀ other, ((tokens ++ [finish])[other]?).map Token.position = report.position ↔
        other = index) ∧
      (∃ continuation, (∀ token ∈ continuation, token.Plain) ∧
        Accepted (tokens.take index ++ continuation)) ∧
      (index < tokens.length → ∀ continuation,
        Rejected (tokens.take (index + 1) ++ continuation)) ∧
      (index = tokens.length → Rejected tokens) ∧
      ((∃ expected found, report.details = .unexpected (some expected) found ∧
          HonestText (tokens.take index) expected) ∨
        ∃ literal, report.details = .literal literal ∧
          Welcome (tokens.take index) .quantity) := by
  obtain ⟨before, token, rest, middle, split, blames⟩ := exists_blames plain ends refused syntactic
  have sides := append_finish_cases split
  have front : tokens.take before.length = before := by
    rcases sides with ⟨rfl, -⟩ | ⟨behind, rfl⟩
    · exact List.take_length
    · exact List.take_left
  have beforePlain : ∀ other ∈ before, other.Plain := by
    intro other member
    rw [← front] at member
    exact plain other (List.mem_of_mem_take member)
  have honest := blames.honest beforePlain
  have told : ∃ report : Report, (∀ [Writing], fault.report source = some report) ∧
      report.position = some token.position ∧
        ((∃ found, report.details = .unexpected (some middle.expected.wording) found) ∨
          middle.expected = .operand ∧ ∃ literal, report.details = .literal literal) := by
    rcases blames.named with rfl | ⟨rfl, expects⟩
    · exact ⟨_, rfl, rfl, Or.inl ⟨_, rfl⟩⟩
    · exact ⟨_, rfl, rfl, Or.inr ⟨expects, _, rfl⟩⟩
  obtain ⟨report, reported, place, details⟩ := told
  -- The blamed token stands behind all the tokens that were taken.
  refine ⟨before.length, report, reported, ?_, ?_, ?_, ?_, ?_⟩
  · intro other
    rw [place]
    exact position_eq_iff distinct split other
  · rw [front]
    exact honest.viable
  · intro inside continuation
    rcases sides with ⟨rfl, -⟩ | ⟨behind, rfl⟩
    · exact absurd inside (Nat.lt_irrefl _)
    · have taken : (before ++ [token] ++ behind).take (before.length + 1) = before ++ [token] :=
        List.take_left' (by simp)
      rw [List.append_assoc, List.singleton_append] at taken
      rw [taken]
      exact blames.rejected continuation
  · intro whole
    rcases sides with ⟨rfl, rfl⟩ | ⟨behind, rfl⟩
    · exact blames.rejected_of_end plain ends
    · simp at whole
  · rw [front]
    rcases details with ⟨found, expected⟩ | ⟨expects, literal, overflows⟩
    · exact Or.inl ⟨_, found, expected, honest.text⟩
    · rw [expects] at honest
      exact Or.inr ⟨literal, overflows, honest⟩

def unfinishedChoice : List Token :=
  [⟨.quantity, "n", 0⟩, ⟨.question, "?", 2⟩, ⟨.number, "1", 4⟩]

theorem ofTokens_blames_unfinishedChoice :
    Formula.ofTokens ⟨0, 4, 4⟩ (unfinishedChoice ++ [Token.finish 5]) =
        .error (.unexpected .colon (Token.finish 5)) ∧
      Rejected unfinishedChoice ∧ Welcome unfinishedChoice .colon := by
  have plain : ∀ token ∈ unfinishedChoice, token.Plain := by decide
  have distinct : ((unfinishedChoice ++ [Token.finish 5]).map Token.position).Nodup := by decide
  have refused : Formula.ofTokens ⟨0, 4, 4⟩ (unfinishedChoice ++ [Token.finish 5]) =
      .error (.unexpected .colon (Token.finish 5)) := rfl
  obtain ⟨index, report, reported, placed, -, -, whole, expected⟩ :=
    ofTokens_blames _ unfinishedChoice _ _ "n ? 1" plain rfl distinct refused
      (Fault.syntactic_unexpected _ _)
  cases Option.some.inj (@reported .standard)
  obtain rfl : 3 = index := (placed 3).mp rfl
  refine ⟨refused, whole rfl, ?_⟩
  rcases expected with ⟨text, found, details, honest⟩ | ⟨literal, details, -⟩
  · cases details
    generalize asked : Expectation.colon.wording = text at honest
    cases honest with
    | colon welcome => exact welcome
    | _ => exact absurd asked (by decide)
  · cases details

end PluralRule
