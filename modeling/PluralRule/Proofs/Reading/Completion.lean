import PluralRule.Proofs.Reading.Complete

/-!
Every reading can be completed. A context asks for the tokens that close it,
from the inside outward, and the token that a reading expects can always be
taken. Main statement: behind a token of the expected kind a reading goes on to
the end of a formula.
-/

namespace PluralRule

def Expectation.kind : Expectation → Token.Kind
  | .operand => .quantity
  | .colon => .colon
  | .closing => .closing
  | .finish => .finish

def Token.word (kind : Token.Kind) : Token := ⟨kind, "", 0⟩

namespace Context

/-- The tokens that close a context behind a finished formula. -/
def completion : Context → List Token
  | .outermost => []
  | .group _ _ outer => .word .closing :: outer.completion
  | .beforeColon _ _ outer => .word .colon :: .word .quantity :: outer.completion
  | .afterColon _ _ _ outer => outer.completion

theorem plain_completion (context : Context) : ∀ token ∈ context.completion, token.Plain := by
  induction context with
  | outermost => simp [completion]
  | group start waiting outer ih =>
      have closing : (Token.word .closing).Plain := by decide
      exact List.forall_mem_cons.mpr ⟨closing, ih⟩
  | beforeColon start condition outer ih =>
      have colon : (Token.word .colon).Plain := by decide
      have quantity : (Token.word .quantity).Plain := by decide
      exact List.forall_mem_cons.mpr ⟨colon, List.forall_mem_cons.mpr ⟨quantity, ih⟩⟩
  | afterColon start condition consequent outer ih => exact ih

theorem close_eq (context : Context) (value : Formula) :
    match context.awaits with
    | .operand => False
    | .colon => ∃ start condition outer inner,
        context.close value = (.beforeColon start condition outer, inner)
    | .closing => ∃ start waiting outer inner,
        context.close value = (.group start waiting outer, inner)
    | .finish => ∃ inner, context.close value = (.outermost, inner) := by
  induction context generalizing value with
  | outermost => exact ⟨value, rfl⟩
  | group start waiting outer ih => exact ⟨start, waiting, outer, value, rfl⟩
  | beforeColon start condition outer ih => exact ⟨start, condition, outer, value, rfl⟩
  | afterColon start condition consequent outer ih =>
      exact ih (.choice start condition consequent value)

end Context

namespace Reading

variable {limits : Limits} {reading following : Reading} {token finish : Token}

theorem run_of_move {deepens : Bool} (rest : List Token)
    (move : Move token reading following deepens)
    (room : deepens = true → (following.nesting : Int) ≤ limits.maxDepth) :
    reading.run limits (token :: rest) = following.run limits rest := by
  have taken := step_eq_next_iff.mpr ⟨deepens, move, room⟩
  simp only [run, taken]

theorem finishes_self (context : Context) (start : Int) (waiting : List Waiting)
    (value : Formula) :
    Finishes context (Waiting.settleAll waiting value) (.operator context start waiting value) :=
  ⟨context, start, waiting, value, rfl, rfl⟩

theorem run_of_end {formula : Formula} (final : Final finish reading formula) :
    (reading.run limits [finish]).1 = .ok formula := by
  simp only [run, final.step_eq limits]

theorem run_completion {context : Context} {formula : Formula} {after : Reading}
    (finishes : Finishes context formula after) (room : (context.nesting : Int) ≤ limits.maxDepth)
    (ends : finish.kind = .finish) :
    ∃ whole, (after.run limits (context.completion ++ [finish])).1 = .ok whole := by
  -- The induction goes outward, through the contexts that a finished formula closes.
  induction context generalizing formula after with
  | outermost =>
      rcases finishes with ⟨inner, start, waiting, value, rfl, closed⟩
      exact ⟨formula, run_of_end (.finish ends closed)⟩
  | group begun around outer ih =>
      rcases finishes with ⟨inner, start, waiting, value, rfl, closed⟩
      have move : Move (.word .closing) (.operator inner start waiting value)
          (.operator outer begun around formula) false := .closing rfl closed
      rw [Context.completion, List.cons_append, run_of_move _ move (by simp)]
      apply ih (finishes_self outer begun around formula)
      simp only [Context.nesting] at room
      omega
  | beforeColon begun condition outer ih =>
      rcases finishes with ⟨inner, start, waiting, value, rfl, closed⟩
      have move : Move (.word .colon) (.operator inner start waiting value)
          (.beginning (.afterColon begun condition formula outer)) true := .colon rfl closed
      have choice : Finishes outer (.choice begun condition formula (.quantity 0))
          (.operator (.afterColon begun condition formula outer) 0 [] (.quantity 0)) :=
        ⟨_, _, _, _, rfl, rfl⟩
      rw [Context.completion, List.cons_append, run_of_move _ move (fun _ => room),
        List.cons_append, run_of_move _ (.first (.quantity rfl)) (by simp)]
      apply ih choice
      simp only [Context.nesting] at room
      omega
  | afterColon begun condition consequent outer ih =>
      rcases finishes with ⟨inner, start, waiting, value, rfl, closed⟩
      apply ih ⟨inner, start, waiting, value, rfl, closed⟩
      simp only [Context.nesting] at room
      omega

/-- Something plain can be put behind the tokens so that the reading accepts them. -/
def Continues (limits : Limits) (reading : Reading) (tokens : List Token) : Prop :=
  ∃ continuation, (∀ token ∈ continuation, token.Plain) ∧
    ∀ finish : Token, finish.kind = .finish →
      ∃ formula, (reading.run limits (tokens ++ continuation ++ [finish])).1 = .ok formula

theorem continues_of_finishes {deepens : Bool} {context : Context} {formula : Formula}
    (move : Move token reading following deepens)
    (deep : deepens = true → (following.nesting : Int) ≤ limits.maxDepth)
    (finishes : Finishes context formula following)
    (room : (context.nesting : Int) ≤ limits.maxDepth) : Continues limits reading [token] := by
  refine ⟨context.completion, context.plain_completion, ?_⟩
  intro finish ends
  rw [List.append_assoc, List.singleton_append, run_of_move _ move deep]
  exact run_completion finishes room ends

theorem continues_operand (expects : reading.expected = .operand) (spelled : token.kind = .quantity)
    (room : (reading.nesting : Int) ≤ limits.maxDepth) : Continues limits reading [token] := by
  cases reading with
  | beginning context =>
      exact continues_of_finishes (.first (.quantity spelled)) (by simp)
        (finishes_self context token.position [] _) room
  | operand context start waiting =>
      apply continues_of_finishes (.quantity spelled) (by simp)
        (finishes_self context start waiting _)
      simp only [nesting] at room
      omega
  | operator context start waiting value =>
      -- Behind an operand no further operand is expected.
      have awaits := context.close_eq value
      have never : context.awaits = .operand := expects
      rw [never] at awaits
      exact awaits.elim

theorem continues_closing (expects : reading.expected = .closing) (spelled : token.kind = .closing)
    (room : (reading.nesting : Int) ≤ limits.maxDepth) : Continues limits reading [token] := by
  cases reading with
  | beginning context => cases expects
  | operand context start waiting => cases expects
  | operator context start waiting value =>
      have awaits := context.close_eq (Waiting.settleAll waiting value)
      have closing : context.awaits = .closing := expects
      rw [closing] at awaits
      rcases awaits with ⟨begun, around, outer, inner, closed⟩
      have below := Context.nesting_of_close closed
      apply continues_of_finishes (.closing spelled closed) (by simp)
        (finishes_self outer begun around inner)
      simp only [nesting, Context.nesting] at room below
      omega

theorem continues_colon (expects : reading.expected = .colon) (spelled : token.kind = .colon)
    (room : (reading.nesting : Int) ≤ limits.maxDepth) : Continues limits reading [token] := by
  cases reading with
  | beginning context => cases expects
  | operand context start waiting => cases expects
  | operator context start waiting value =>
      have awaits := context.close_eq (Waiting.settleAll waiting value)
      have colon : context.awaits = .colon := expects
      rw [colon] at awaits
      rcases awaits with ⟨begun, condition, outer, inner, closed⟩
      have below := Context.nesting_of_close closed
      have deep : ((beginning (.afterColon begun condition inner outer)).nesting : Int) ≤
          limits.maxDepth := by
        simp only [nesting, Context.nesting] at room below ⊢
        omega
      have alternate : (beginning (.afterColon begun condition inner outer)).expected = .operand :=
        rfl
      have begins : Continues limits (beginning (.afterColon begun condition inner outer))
          [.word .quantity] := continues_operand alternate rfl deep
      rcases begins with ⟨continuation, plain, accepted⟩
      -- The alternate that the colon asks for is still missing, and any quantity will do.
      refine ⟨.word .quantity :: continuation, ?_, ?_⟩
      · have quantity : (Token.word .quantity).Plain := by decide
        exact List.forall_mem_cons.mpr ⟨quantity, plain⟩
      · intro finish ends
        have read := accepted finish ends
        rw [List.append_assoc, List.singleton_append,
          run_of_move _ (.colon spelled closed) (fun _ => deep)]
        exact read

/-- What a reading expects is honest: behind such a token it can be completed. -/
theorem continues_expected (more : reading.expected ≠ .finish)
    (spelled : token.kind = reading.expected.kind)
    (room : (reading.nesting : Int) ≤ limits.maxDepth) : Continues limits reading [token] := by
  cases expects : reading.expected with
  | operand => exact continues_operand expects (by rw [spelled, expects]; rfl) room
  | colon => exact continues_colon expects (by rw [spelled, expects]; rfl) room
  | closing => exact continues_closing expects (by rw [spelled, expects]; rfl) room
  | finish => exact absurd expects more

theorem run_expected_finish (expects : reading.expected = .finish) (ends : finish.kind = .finish) :
    ∃ formula, (reading.run limits [finish]).1 = .ok formula := by
  cases reading with
  | beginning context => cases expects
  | operand context start waiting => cases expects
  | operator context start waiting value =>
      have awaits := context.close_eq (Waiting.settleAll waiting value)
      have whole : context.awaits = .finish := expects
      rw [whole] at awaits
      rcases awaits with ⟨formula, closed⟩
      exact ⟨formula, run_of_end (.finish ends closed)⟩

end Reading

end PluralRule
