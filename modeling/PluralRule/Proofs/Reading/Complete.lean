import PluralRule.Proofs.Grammar
import PluralRule.Proofs.Literal
import PluralRule.Proofs.Reading.Follow

/-!
Every phrase is read. The tokens of a phrase lead a reading that is open for
its level to the place behind the phrase, and what waits there is settled to
the formula of the phrase. The nesting of the phrase decides whether the limits
allow this. Main statement: a whole formula is read to its end, or the first
level that the limits do not allow is refused.
-/

namespace PluralRule

namespace Level

theorem operation?_of_joins? (level : Level) (kind : Token.Kind) (operation : Operation)
    (joins : level.joins? kind = some operation) :
    kind.operation? = some operation ∧ operation.strength = level.rank := by
  unfold joins? at joins
  split at joins <;> cases joins <;> exact ⟨rfl, rfl⟩

theorem rank_of_joins? (level : Level) (kind : Token.Kind) (operation : Operation)
    (joins : level.joins? kind = some operation) :
    level.rank ≤ product.rank ∧ level.rank ≠ negation.rank := by
  unfold joins? at joins
  split at joins <;> cases joins <;> decide

end Level

namespace Waiting

/-- The rank of the level at which an operator reads its operand. -/
def operandRank : Waiting → Nat
  | .negation _ => negationStrength
  | .sign _ => signStrength
  | .binary _ operation _ => operation.strength + 1

def Opens (level : Level) : List Waiting → Prop
  | [] => True
  | first :: _ => first.operandRank ≤ level.rank

theorem admitsNegation_of_opens (waiting : List Waiting) (opens : Opens .negation waiting) :
    admitsNegation waiting = true := by
  cases waiting with
  | nil => rfl
  | cons first rest =>
      cases first with
      | negation position => rfl
      | sign position =>
          have loose : signStrength ≤ Level.negation.rank := opens
          exact absurd loose (by decide)
      | binary position operation left =>
          exact decide_eq_true (Nat.le_trans (Nat.le_succ _) opens)

theorem opens_of_le (loose tight : Level) (waiting : List Waiting)
    (below : loose.rank ≤ tight.rank) (opens : Opens loose waiting) : Opens tight waiting := by
  cases waiting with
  | nil => trivial
  | cons first rest => exact Nat.le_trans opens below

theorem settle_settle (loose tight : Nat) (below : loose ≤ tight) (waiting : List Waiting)
    (value : Formula) :
    settle loose (settle tight waiting value).1 (settle tight waiting value).2 =
      settle loose waiting value := by
  induction waiting generalizing value with
  | nil => rfl
  | cons first rest ih =>
      by_cases held : tight ≤ first.strength
      · simp only [settle, if_pos held, if_pos (Nat.le_trans below held), ih]
      · simp only [settle, if_neg held]

theorem settle_eq_of_settle_eq {loose tight : Nat} (below : loose ≤ tight)
    {left right : List Waiting} {first second : Formula}
    (same : settle tight left first = settle tight right second) :
    settle loose left first = settle loose right second := by
  rw [← settle_settle loose tight below left first, same,
    settle_settle loose tight below right second]

/-- Where an operation joins phrases, nothing in front of its left operand takes that operand. -/
theorem settle_of_opens (level : Level) (kind : Token.Kind) (operation : Operation)
    (joins : level.joins? kind = some operation) (waiting : List Waiting)
    (opens : Opens level waiting) (value : Formula) :
    settle level.rank waiting value = (waiting, value) := by
  rcases Level.rank_of_joins? level kind operation joins with ⟨high, apart⟩
  cases waiting with
  | nil => rfl
  | cons first rest =>
      have loose : first.strength < level.rank := by
        cases first with
        | negation position =>
            simp only [Opens, operandRank, strength, negationStrength, Level.rank] at *
            omega
        | sign position =>
            simp only [Opens, operandRank, strength, signStrength, Level.rank] at *
            omega
        | binary position operation left => exact opens
      simp only [settle, if_neg (Nat.not_le.mpr loose)]

end Waiting

namespace Limits

/-- The limits allow so much nesting above a base; without nesting nothing is asked. -/
def Admits (limits : Limits) (base nesting : Nat) : Prop :=
  nesting = 0 ∨ ((base + nesting : Nat) : Int) ≤ limits.maxDepth

def tooDeep (limits : Limits) (base : Nat) : Breach :=
  ⟨.depth, limits.maxDepth, max limits.maxDepth base + 1⟩

end Limits

/-- Tokens that cost some nesting above a base lead a reading to a goal exactly
when the limits allow it. -/
structure Leads (limits : Limits) (base nesting : Nat) (reading : Reading) (tokens : List Token)
    (goal : Reading → Prop) : Prop where
  reaches : limits.Admits base nesting →
    ∃ after, reading.follow limits tokens = .next after ∧ goal after
  exceeds : ¬ limits.Admits base nesting →
    reading.follow limits tokens = .fail (.limit (limits.tooDeep base))

namespace Leads

variable {limits : Limits} {base outer inner nesting : Nat} {reading following : Reading}
  {token : Token} {before tokens : List Token} {middle goal : Reading → Prop}

theorem done (met : goal reading) : Leads limits base 0 reading [] goal where
  reaches _ := ⟨reading, rfl, met⟩
  exceeds refused := absurd (Or.inl rfl) refused

theorem imp {wider : Reading → Prop} (leads : Leads limits base nesting reading tokens goal)
    (weaken : ∀ after, goal after → wider after) :
    Leads limits base nesting reading tokens wider := by
  refine ⟨fun admitted => ?_, leads.exceeds⟩
  rcases leads.reaches admitted with ⟨after, led, met⟩
  exact ⟨after, led, weaken after met⟩

theorem begin {context : Context} {first : Token}
    (leads : Leads limits base nesting (.operand context first.position []) (first :: tokens)
      goal) :
    Leads limits base nesting (.beginning context) (first :: tokens) goal :=
  ⟨leads.reaches, leads.exceeds⟩

theorem take (move : Move token reading following false)
    (rest : Leads limits base nesting following tokens goal) :
    Leads limits base nesting reading (token :: tokens) goal := by
  have taken : reading.follow limits (token :: tokens) = following.follow limits tokens :=
    Reading.follow_cons_of_next tokens (move.step_eq limits)
  exact ⟨fun admitted => taken ▸ rest.reaches admitted,
    fun refused => taken ▸ rest.exceeds refused⟩

theorem deepen (move : Move token reading following true)
    (level : following.nesting = base + 1)
    (rest : Leads limits (base + 1) nesting following tokens goal) :
    Leads limits base (1 + nesting) reading (token :: tokens) goal := by
  have taken (within : (following.nesting : Int) ≤ limits.maxDepth) :
      reading.follow limits (token :: tokens) = following.follow limits tokens :=
    Reading.follow_cons_of_next tokens
      (Reading.step_eq_next_iff.mpr ⟨true, move, fun _ => within⟩)
  constructor
  · intro admitted
    have within : ((base + (1 + nesting) : Nat) : Int) ≤ limits.maxDepth :=
      admitted.resolve_left (by omega)
    rw [taken (by omega)]
    exact rest.reaches (Or.inr (by omega))
  · intro refused
    have beyond : ¬ ((base + (1 + nesting) : Nat) : Int) ≤ limits.maxDepth :=
      fun within => refused (Or.inr within)
    -- Either a level further inside is refused or this one.
    by_cases within : (following.nesting : Int) ≤ limits.maxDepth
    · have inside : ¬ limits.Admits (base + 1) nesting := by
        rintro (flat | allowed)
        · omega
        · omega
      rw [taken within, rest.exceeds inside]
      simp only [Limits.tooDeep]
      congr 3
      omega
    · have failed := (move.step_eq limits).trans (Reading.deeper_of_lt (Int.not_le.mp within))
      rw [Reading.follow_cons_of_fail tokens failed]
      simp only [Limits.tooDeep]
      congr 3
      omega

theorem append (first : Leads limits base outer reading before middle)
    (second : ∀ after, middle after → Leads limits base inner after tokens goal) :
    Leads limits base (max outer inner) reading (before ++ tokens) goal := by
  constructor
  · intro admitted
    have allowed : limits.Admits base outer ∧ limits.Admits base inner := by
      unfold Limits.Admits at *
      omega
    rcases first.reaches allowed.1 with ⟨after, led, met⟩
    rw [Reading.follow_append_of_next tokens led]
    exact (second after met).reaches allowed.2
  · intro refused
    -- The tokens are followed as far as the first level that is refused.
    by_cases start : limits.Admits base outer
    · have later : ¬ limits.Admits base inner := by
        unfold Limits.Admits at *
        omega
      rcases first.reaches start with ⟨after, led, met⟩
      rw [Reading.follow_append_of_next tokens led]
      exact (second after met).exceeds later
    · exact Reading.follow_append_of_fail tokens (first.exceeds start)

end Leads

namespace Reading

/-- Behind a phrase of a level: what waits is settled to the formula of the phrase. -/
def Holds (context : Context) (start : Int) (level : Level) (waiting : List Waiting)
    (formula : Formula) (after : Reading) : Prop :=
  ∃ inner value, after = .operator context start inner value ∧
    Waiting.settle level.rank inner value = Waiting.settle level.rank waiting formula

def Finishes (context : Context) (formula : Formula) (after : Reading) : Prop :=
  ∃ inner start waiting value, after = .operator inner start waiting value ∧
    inner.close (Waiting.settleAll waiting value) = context.close formula

/-- How tokens that are a phrase of a level have to be read. A whole formula
begins a reading of its own, any other phrase is an operand of what waits. -/
def Performs (limits : Limits) : Level → List Token → Formula → Nat → Prop
  | .choice, tokens, formula, nesting =>
      ∀ context, Leads limits context.nesting nesting (.beginning context) tokens
        (Finishes context formula)
  | level, tokens, formula, nesting =>
      ∀ context start waiting, Waiting.Opens level waiting →
        Leads limits (context.nesting + Waiting.nestingOf waiting) nesting
          (.operand context start waiting) tokens (Holds context start level waiting formula)

variable {limits : Limits} {level : Level} {tokens : List Token} {formula : Formula}
  {nesting : Nat}

theorem performs_iff (tight : level ≠ .choice) :
    Performs limits level tokens formula nesting ↔
      ∀ context start waiting, Waiting.Opens level waiting →
        Leads limits (context.nesting + Waiting.nestingOf waiting) nesting
          (.operand context start waiting) tokens
          (Holds context start level waiting formula) := by
  cases level <;> first | rfl | exact absurd rfl tight

theorem performs_of_tighter {next : Level} (above : level.tighter? = some next)
    (part : Phrase next tokens formula nesting)
    (performs : Performs limits next tokens formula nesting) :
    Performs limits level tokens formula nesting := by
  have raised := Level.rank_of_tighter? level next above
  have tight : next ≠ .choice := by
    rintro rfl
    simp [Level.rank] at raised
  have below : level.rank ≤ next.rank := by omega
  rw [performs_iff tight] at performs
  by_cases whole : level = .choice
  · -- A formula that asks nothing is a disjunction, and its first token begins it.
    subst whole
    intro context
    cases tokens with
    | nil => exact absurd rfl part.ne_nil
    | cons first rest =>
        have read := performs context first.position [] trivial
        have goal (after : Reading) (held : Holds context first.position next [] formula after) :
            Finishes context formula after := by
          rcases held with ⟨inner, value, rfl, settled⟩
          have whole := Waiting.settle_eq_of_settle_eq below settled
          refine ⟨context, first.position, inner, value, rfl, ?_⟩
          rw [Waiting.settleAll, show (0 : Nat) = Level.choice.rank from rfl, whole]
          rfl
        exact (read.imp goal).begin
  -- What is settled at the tighter level is settled at the looser one.
  · rw [performs_iff whole]
    intro context start waiting opens
    refine (performs context start waiting
      (Waiting.opens_of_le level next waiting below opens)).imp ?_
    rintro after ⟨inner, value, rfl, settled⟩
    exact ⟨inner, value, rfl, Waiting.settle_eq_of_settle_eq below settled⟩

theorem performs_choice {first question colon : Token} {rest second third : List Token}
    {condition consequent alternate : Formula} {outer inner last : Nat}
    (asks : question.kind = .question) (divides : colon.kind = .colon)
    (conditionRead : Performs limits .disjunction (first :: rest) condition outer)
    (consequentRead : Performs limits .choice second consequent inner)
    (alternateRead : Performs limits .choice third alternate last) :
    Performs limits .choice ((first :: rest) ++ (question :: second ++ colon :: third))
      (.choice first.position condition consequent alternate)
      (max outer (max (1 + inner) (1 + last))) := by
  intro context
  have start := conditionRead context first.position [] trivial
  refine start.begin.append fun asked held => ?_
  rcases held with ⟨waiting, value, rfl, settled⟩
  have whole : Waiting.settleAll waiting value = condition :=
    congrArg Prod.snd (Waiting.settle_eq_of_settle_eq (Nat.zero_le 1) settled)
  have move : Move question (.operator context first.position waiting value)
      (.beginning (.beforeColon first.position condition context)) true :=
    whole ▸ .question asks
  have led := Leads.deepen move rfl (consequentRead (.beforeColon first.position condition context))
  refine led.append fun divided finished => ?_
  rcases finished with ⟨around, begun, kept, part, rfl, closed⟩
  exact .deepen (.colon divides closed) rfl
    (alternateRead (.afterColon first.position condition consequent context))

theorem performs_joined {next : Level} {token : Token} {operation : Operation}
    {before after : List Token} {left right : Formula} {outer inner : Nat}
    (joins : level.joins? token.kind = some operation) (above : level.tighter? = some next)
    (leftRead : Performs limits level before left outer)
    (rightRead : Performs limits next after right inner) :
    Performs limits level (before ++ token :: after)
      (.binary token.position (.known operation) left right) (max outer inner) := by
  rcases Level.operation?_of_joins? level token.kind operation joins with ⟨spelled, strength⟩
  have raised := Level.rank_of_tighter? level next above
  have tight : level ≠ .choice := by
    rintro rfl
    cases joins
  have tighter : next ≠ .choice := by
    rintro rfl
    simp [Level.rank] at raised
  rw [performs_iff tight] at leftRead ⊢
  rw [performs_iff tighter] at rightRead
  intro context start waiting opens
  refine (leftRead context start waiting opens).append fun joined held => ?_
  rcases held with ⟨kept, value, rfl, settled⟩
  rw [Waiting.settle_of_opens level token.kind operation joins waiting opens, ← strength] at settled
  have behind : Waiting.Opens next (.binary token.position operation left :: waiting) := by
    simp only [Waiting.Opens, Waiting.operandRank]
    omega
  have read := rightRead context start (.binary token.position operation left :: waiting) behind
  have flat : context.nesting + Waiting.nestingOf (.binary token.position operation left :: waiting)
      = context.nesting + Waiting.nestingOf waiting := by
    simp [Waiting.nestingOf, Waiting.nesting]
  rw [flat] at read
  refine .take (.operation spelled settled) (read.imp ?_)
  rintro final ⟨left', right', rfl, held⟩
  refine ⟨left', right', rfl, ?_⟩
  -- Settling one rank looser also gives the right operand to the operation.
  have holds : level.rank ≤ (Waiting.binary token.position operation left).strength :=
    Nat.le_of_eq strength.symm
  rw [Waiting.settle_eq_of_settle_eq (by omega) held, Waiting.settle, if_pos holds, Waiting.apply]

theorem performs_unary (own : Waiting) {token : Token} (tight : level ≠ .choice)
    (rank : own.strength = level.rank) (operand : own.operandRank = level.rank)
    (nested : own.nesting = 1)
    (move : ∀ context start waiting, Waiting.Opens level waiting →
      Move token (.operand context start waiting) (.operand context start (own :: waiting)) true)
    (read : Performs limits level tokens formula nesting) :
    Performs limits level (token :: tokens) (own.apply formula) (1 + nesting) := by
  rw [performs_iff tight] at read ⊢
  intro context start waiting opens
  have inner := read context start (own :: waiting) (Nat.le_of_eq operand)
  have level_eq : context.nesting + Waiting.nestingOf (own :: waiting) =
      context.nesting + Waiting.nestingOf waiting + 1 := by
    simp only [Waiting.nestingOf, nested]
    omega
  rw [level_eq] at inner
  refine .deepen (move context start waiting opens) level_eq (inner.imp ?_)
  rintro final ⟨kept, value, rfl, held⟩
  refine ⟨kept, value, rfl, ?_⟩
  rw [held, Waiting.settle, if_pos (Nat.le_of_eq rank.symm)]

theorem performs_group {opening closing : Token} (opens : opening.kind = .opening)
    (closes : closing.kind = .closing) (read : Performs limits .choice tokens formula nesting) :
    Performs limits .primary (opening :: (tokens ++ [closing])) formula (1 + nesting) := by
  intro context start waiting ready
  have inside := read (.group start waiting context)
  have whole : Leads limits (context.nesting + Waiting.nestingOf waiting + 1) (max nesting 0)
      (.beginning (.group start waiting context)) (tokens ++ [closing])
      (Holds context start .primary waiting formula) := by
    refine inside.append fun after finished => ?_
    rcases finished with ⟨inner, begun, kept, value, rfl, closed⟩
    exact .take (.closing closes closed) (.done ⟨waiting, formula, rfl, rfl⟩)
  rw [Nat.max_zero] at whole
  exact .deepen (.opening opens) rfl whole

end Reading

theorem Phrase.performs {level : Level} {tokens : List Token} {formula : Formula} {nesting : Nat}
    (phrase : Phrase level tokens formula nesting) (limits : Limits) :
    Reading.Performs limits level tokens formula nesting := by
  induction phrase with
  | tighter above part ih => exact Reading.performs_of_tighter above part ih
  | choice asks divides conditionPart consequentPart alternatePart firstIh secondIh thirdIh =>
      exact Reading.performs_choice asks divides firstIh secondIh thirdIh
  | joined joins above leftPart rightPart leftIh rightIh =>
      exact Reading.performs_joined joins above leftIh rightIh
  | @negation token tokens operand nesting spelled part ih =>
      exact Reading.performs_unary (.negation token.position) (by decide) rfl rfl rfl
        (fun _ _ waiting opens =>
          .negation spelled (Waiting.admitsNegation_of_opens waiting opens)) ih
  | @sign token tokens operand nesting spelled part ih =>
      exact Reading.performs_unary (.sign token.position) (by decide) rfl rfl rfl
        (fun _ _ _ _ => .sign spelled) ih
  | @number token value spelled read small =>
      intro context start waiting opens
      have literal :=
        (Formula.literalValue?_eq_some_iff token.text value value read).mpr ⟨rfl, small⟩
      exact .take (.number spelled literal) (.done ⟨waiting, _, rfl, rfl⟩)
  | quantity spelled =>
      intro context start waiting opens
      exact .take (.quantity spelled) (.done ⟨waiting, _, rfl, rfl⟩)
  | group opens closes part ih => exact Reading.performs_group opens closes ih

namespace Phrase

variable {tokens : List Token} {formula : Formula} {nesting : Nat} {finish : Token}

theorem run_eq_ok (phrase : Phrase .choice tokens formula nesting) (limits : Limits)
    (ends : finish.kind = .finish) (rest : List Token) (admitted : limits.Admits 0 nesting) :
    Reading.initial.run limits (tokens ++ finish :: rest) = (.ok formula, finish :: rest) := by
  rcases (phrase.performs limits .outermost).reaches admitted with ⟨after, led, finished⟩
  rcases finished with ⟨inner, start, waiting, value, rfl, closed⟩
  exact Reading.run_of_final rest led (.finish ends closed)

theorem run_eq_error (phrase : Phrase .choice tokens formula nesting) (limits : Limits)
    (rest : List Token)
    (refused : ¬ limits.Admits 0 nesting) :
    (Reading.initial.run limits (tokens ++ rest)).1 = .error (.limit (limits.tooDeep 0)) :=
  Reading.run_of_follow_fail rest ((phrase.performs limits .outermost).exceeds refused)

end Phrase

end PluralRule
