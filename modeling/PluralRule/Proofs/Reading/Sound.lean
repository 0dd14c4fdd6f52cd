import PluralRule.Proofs.Reading.Complete

/-!
Whatever is read is a phrase. Each stack of a reading is tied to the tokens
that have been taken for it, part by part. A move keeps the tie, so a formula
that is read to its end is a phrase of exactly the tokens that were taken.
-/

namespace PluralRule

theorem Operation.strength_bounds (operation : Operation) :
    1 ≤ operation.strength ∧ operation.strength ≤ 6 := by
  cases operation with
  | logical connective => cases connective <;> decide
  | relational comparison => simp [strength]
  | numeric arithmetic => cases arithmetic <;> decide

def Begins (start : Int) (tokens : List Token) : Prop :=
  ∃ first rest, tokens = first :: rest ∧ first.position = start

theorem Begins.append {start : Int} {tokens : List Token} (begins : Begins start tokens)
    (behind : List Token) : Begins start (tokens ++ behind) := by
  rcases begins with ⟨first, rest, rfl, placed⟩
  exact ⟨first, rest ++ behind, rfl, placed⟩

namespace Waiting

/-- The tokens are what the waiting operators and their left operands were read from. -/
inductive Built : List Waiting → List Token → Prop where
  | none : Built [] []
  | negation {token : Token} {rest : List Waiting} {tokens : List Token}
      (spelled : token.kind = .not) (opens : Opens .negation rest) (built : Built rest tokens) :
      Built (.negation token.position :: rest) (tokens ++ [token])
  | sign {token : Token} {rest : List Waiting} {tokens : List Token}
      (spelled : token.kind = .minus) (built : Built rest tokens) :
      Built (.sign token.position :: rest) (tokens ++ [token])
  | binary {level next : Level} {token : Token} {operation : Operation} {left : Formula}
      {rest : List Waiting} {tokens before : List Token} {nesting : Nat}
      (joins : level.joins? token.kind = some operation) (above : level.tighter? = some next)
      (opens : Opens level rest) (leftPart : Phrase level before left nesting)
      (built : Built rest tokens) :
      Built (.binary token.position operation left :: rest) (tokens ++ (before ++ [token]))

/-- The tokens fall into those of the operators that still wait and a phrase of the level. -/
def Splits (level : Level) (tokens : List Token) (settled : List Waiting × Formula) : Prop :=
  ∃ before last nesting, before ++ last = tokens ∧ Built settled.1 before ∧
    Opens level settled.1 ∧ Phrase level last settled.2 nesting

theorem operandRank_le (waiting : Waiting) :
    waiting.operandRank ≤ waiting.strength + 1 := by
  cases waiting with
  | negation position => exact Nat.le_succ _
  | sign position => exact Nat.le_succ _
  | binary position operation left => exact Nat.le_refl _

theorem operandRank_bounds (waiting : Waiting) :
    Level.disjunction.rank < waiting.operandRank ∧ waiting.operandRank ≤ Level.sign.rank := by
  cases waiting with
  | negation position => simp [operandRank, negationStrength, Level.rank]
  | sign position => simp [operandRank, signStrength, Level.rank]
  | binary position operation left =>
      have bounds := operation.strength_bounds
      simp only [operandRank, Level.rank]
      omega

theorem opens_of_admitsNegation {waiting : List Waiting} {tokens : List Token}
    (built : Built waiting tokens) (admitted : admitsNegation waiting = true) :
    Opens .negation waiting := by
  cases built with
  | none => trivial
  | negation spelled opens built => exact Nat.le_refl _
  | sign spelled built => cases admitted
  | binary joins above opens leftPart built =>
      rcases Level.operation?_of_joins? _ _ _ joins with ⟨spelled, strength⟩
      rcases Level.rank_of_joins? _ _ _ joins with ⟨-, apart⟩
      have weak := of_decide_eq_true admitted
      simp only [Opens, operandRank, strength, Level.rank, negationStrength, Waiting.strength] at *
      omega

theorem opens_of_sign_le (level : Level) (tight : Level.sign.rank ≤ level.rank)
    (waiting : List Waiting) : Opens level waiting := by
  cases waiting with
  | nil => trivial
  | cons first rest => exact Nat.le_trans first.operandRank_bounds.2 tight

theorem splits_of_loose {level tight : Level} {first : Waiting} {rest : List Waiting}
    {tokens last : List Token} {value : Formula} {nesting : Nat}
    (built : Built (first :: rest) tokens) (phrase : Phrase tight last value nesting)
    (below : level.rank ≤ tight.rank) (loose : ¬ level.rank ≤ first.strength) :
    Splits level (tokens ++ last) (settle level.rank (first :: rest) value) := by
  rw [settle, if_neg loose]
  have opens : first.operandRank ≤ level.rank := by
    have bound := first.operandRank_le
    omega
  exact ⟨tokens, last, nesting, rfl, built, opens, phrase.loosen level below⟩

theorem Built.splits_settle {waiting : List Waiting} {tokens : List Token}
    (built : Built waiting tokens) (level : Level) {tight : Level} {last : List Token}
    {value : Formula} {nesting : Nat} (phrase : Phrase tight last value nesting)
    (opens : Opens tight waiting) (below : level.rank ≤ tight.rank) :
    Splits level (tokens ++ last) (settle level.rank waiting value) := by
  -- One waiting operator after the other takes the value, the innermost first.
  induction built generalizing tight last value nesting with
  | none => exact ⟨[], last, nesting, rfl, .none, trivial, phrase.loosen level below⟩
  | @negation token rest tokens spelled ready built ih =>
      by_cases held : level.rank ≤ negationStrength
      · have taken := ih (.negation spelled (phrase.loosen .negation opens)) ready held
        rw [settle, if_pos (show level.rank ≤ (Waiting.negation token.position).strength from held)]
        simpa [apply] using taken
      · exact splits_of_loose (.negation spelled ready built) phrase below held
  | @sign token rest tokens spelled built ih =>
      by_cases held : level.rank ≤ signStrength
      · have ready := opens_of_sign_le .sign (Nat.le_refl _) rest
        have taken := ih (.sign spelled (phrase.loosen .sign opens)) ready held
        rw [settle, if_pos (show level.rank ≤ (Waiting.sign token.position).strength from held)]
        simpa [apply] using taken
      · exact splits_of_loose (.sign spelled built) phrase below held
  | @binary own next token operation left rest tokens before outer joins above ready leftPart
      built ih =>
      rcases Level.operation?_of_joins? own token.kind operation joins with ⟨-, strength⟩
      have raised := Level.rank_of_tighter? own next above
      by_cases held : level.rank ≤ operation.strength
      · have behind : next.rank ≤ tight.rank := by
          simp only [Opens, operandRank] at opens
          omega
        have taken := ih (.joined joins above leftPart (phrase.loosen next behind)) ready
          (by omega)
        rw [settle, if_pos (show level.rank ≤
          (Waiting.binary token.position operation left).strength from held)]
        simpa [apply] using taken
      · exact splits_of_loose (.binary joins above ready leftPart built) phrase below held

theorem Built.settleAll {waiting : List Waiting} {tokens last : List Token} {value : Formula}
    {nesting : Nat} (built : Built waiting tokens) (phrase : Phrase .primary last value nesting) :
    ∃ whole, Phrase .disjunction (tokens ++ last) (settleAll waiting value) whole := by
  have opens := opens_of_sign_le .primary (by decide) waiting
  obtain ⟨before, all, whole, split, kept, clear, part⟩ :=
    built.splits_settle .disjunction phrase opens (by decide)
  have looser := settle_settle 0 Level.disjunction.rank (Nat.zero_le _) waiting value
  cases settled : settle Level.disjunction.rank waiting value with
  | mk rest formula =>
      rw [settled] at kept clear part looser
      cases rest with
      | nil =>
          cases kept
          have same : Waiting.settleAll waiting value = formula :=
            (congrArg Prod.snd looser).symm
          rw [same, ← split]
          exact ⟨whole, part⟩
      | cons first rest =>
          -- No operator lets a disjunction begin behind it.
          exact absurd clear (Nat.not_le.mpr first.operandRank_bounds.1)

end Waiting

namespace Context

inductive Built : Context → List Token → Prop where
  | outermost : Built .outermost []
  | group {opening : Token} {start : Int} {waiting : List Waiting} {outer : Context}
      {tokens middle : List Token} (opens : opening.kind = .opening)
      (begins : Begins start (middle ++ [opening])) (built : Built outer tokens)
      (waitingBuilt : Waiting.Built waiting middle) :
      Built (.group start waiting outer) (tokens ++ (middle ++ [opening]))
  | beforeColon {question : Token} {start : Int} {condition : Formula} {outer : Context}
      {tokens first : List Token} {nesting : Nat} (asks : question.kind = .question)
      (begins : Begins start first) (built : Built outer tokens)
      (conditionPart : Phrase .disjunction first condition nesting) :
      Built (.beforeColon start condition outer) (tokens ++ (first ++ [question]))
  | afterColon {question colon : Token} {start : Int} {condition consequent : Formula}
      {outer : Context} {tokens first second : List Token} {nesting inner : Nat}
      (asks : question.kind = .question) (divides : colon.kind = .colon)
      (begins : Begins start first) (built : Built outer tokens)
      (conditionPart : Phrase .disjunction first condition nesting)
      (consequentPart : Phrase .choice second consequent inner) :
      Built (.afterColon start condition consequent outer)
        (tokens ++ (first ++ question :: second ++ [colon]))

theorem Built.close {context : Context} {tokens last : List Token} {value : Formula}
    {nesting : Nat} (built : Built context tokens) (phrase : Phrase .choice last value nesting) :
    ∃ before whole depth, before ++ whole = tokens ++ last ∧
      Built (context.close value).1 before ∧
      Phrase .choice whole (context.close value).2 depth := by
  induction built generalizing last value nesting with
  | outermost => exact ⟨[], last, nesting, rfl, .outermost, phrase⟩
  | group opens begins built waitingBuilt ih =>
      exact ⟨_, last, nesting, rfl, .group opens begins built waitingBuilt, phrase⟩
  | beforeColon asks begins built conditionPart ih =>
      exact ⟨_, last, nesting, rfl, .beforeColon asks begins built conditionPart, phrase⟩
  | afterColon asks divides begins built conditionPart consequentPart ih =>
      rcases begins with ⟨head, rest, rfl, rfl⟩
      obtain ⟨before, whole, depth, split, kept, part⟩ :=
        ih (.choice asks divides conditionPart consequentPart phrase)
      refine ⟨before, whole, depth, ?_, kept, part⟩
      simpa using split

end Context

namespace Reading

inductive Built : Reading → List Token → Prop where
  | beginning {context : Context} {tokens : List Token} (built : Context.Built context tokens) :
      Built (.beginning context) tokens
  | operand {context : Context} {start : Int} {waiting : List Waiting}
      {tokens middle : List Token} (begins : Begins start middle)
      (built : Context.Built context tokens) (waitingBuilt : Waiting.Built waiting middle) :
      Built (.operand context start waiting) (tokens ++ middle)
  | operator {context : Context} {start : Int} {waiting : List Waiting} {value : Formula}
      {tokens middle last : List Token} {nesting : Nat} (begins : Begins start (middle ++ last))
      (built : Context.Built context tokens) (waitingBuilt : Waiting.Built waiting middle)
      (part : Phrase .primary last value nesting) :
      Built (.operator context start waiting value) (tokens ++ (middle ++ last))

end Reading

namespace Move

variable {token : Token} {context : Context} {start : Int} {waiting : List Waiting}
  {following : Reading} {deepens : Bool} {tokens middle last : List Token}

theorem built_operand (move : Move token (.operand context start waiting) following deepens)
    (plain : token.Plain) (begins : Begins start (middle ++ [token]))
    (built : Context.Built context tokens) (waitingBuilt : Waiting.Built waiting middle) :
    following.Built (tokens ++ (middle ++ [token])) := by
  cases move with
  | number spelled literal =>
      rcases Option.isSome_iff_exists.mp (plain.2 spelled) with ⟨value, read⟩
      obtain ⟨rfl, small⟩ :=
        (Formula.literalValue?_eq_some_iff token.text value _ read).mp literal
      exact .operator begins built waitingBuilt (.number spelled read small)
  | quantity spelled => exact .operator begins built waitingBuilt (.quantity spelled)
  | opening spelled => exact .beginning (.group spelled begins built waitingBuilt)
  | sign spelled => exact .operand begins built (.sign spelled waitingBuilt)
  | negation spelled admitted =>
      have opens := Waiting.opens_of_admitsNegation waitingBuilt admitted
      exact .operand begins built (.negation spelled opens waitingBuilt)

theorem built_operator {value : Formula} {nesting : Nat}
    (move : Move token (.operator context start waiting value) following deepens)
    (begins : Begins start (middle ++ last)) (built : Context.Built context tokens)
    (waitingBuilt : Waiting.Built waiting middle) (part : Phrase .primary last value nesting) :
    following.Built (tokens ++ (middle ++ last) ++ [token]) := by
  rcases waitingBuilt.settleAll part with ⟨outer, whole⟩
  cases move with
  | @operation _ _ _ kept _ left operation spelled settled =>
      have joins := operation.joins_level token.kind spelled
      rcases operation.tighter_level with ⟨next, above, -⟩
      rcases Level.operation?_of_joins? _ _ _ joins with ⟨-, same⟩
      have ready := Waiting.opens_of_sign_le .primary (by decide) waiting
      have below := Level.rank_le_primary operation.level
      -- What the operation settles is its left operand; the rest waits in front of it.
      obtain ⟨before, operand, depth, split, kept, opens, left⟩ :=
        waitingBuilt.splits_settle operation.level part ready below
      rw [← same, settled] at kept opens left
      have grown : Reading.Built (.operand context start _)
          (tokens ++ (before ++ (operand ++ [token]))) :=
        .operand (by simpa [← split] using begins.append [token]) built
          (.binary joins above opens left kept)
      simpa [← split] using grown
  | question spelled =>
      have grown := Context.Built.beforeColon spelled begins built whole
      simpa using Reading.Built.beginning grown
  | colon spelled closed =>
      obtain ⟨before, second, depth, split, kept, consequentPart⟩ :=
        built.close (whole.loosen .choice (by decide))
      rw [closed] at kept consequentPart
      cases kept with
      | beforeColon asks begun outerBuilt conditionPart =>
          have grown := Context.Built.afterColon asks spelled begun outerBuilt conditionPart
            consequentPart
          simpa [← split] using Reading.Built.beginning grown
  | closing spelled closed =>
      obtain ⟨before, inside, depth, split, kept, innerPart⟩ :=
        built.close (whole.loosen .choice (by decide))
      rw [closed] at kept innerPart
      cases kept with
      | group opens begun outerBuilt aroundBuilt =>
          have grouped := Phrase.group opens spelled innerPart
          have grown := Reading.Built.operator (by simpa using begun.append (inside ++ [token]))
            outerBuilt aroundBuilt grouped
          simpa [← split] using grown

theorem built {reading : Reading} (move : Move token reading following deepens)
    (plain : token.Plain) (before : reading.Built tokens) :
    following.Built (tokens ++ [token]) := by
  cases before with
  | beginning built =>
      cases move with
      | first move =>
          have begins : Begins token.position ([] ++ [token]) := ⟨token, [], rfl, rfl⟩
          exact move.built_operand plain begins built .none
  | operand begins built waitingBuilt =>
      have grown := move.built_operand plain (begins.append [token]) built waitingBuilt
      simpa using grown
  | operator begins built waitingBuilt part =>
      exact move.built_operator begins built waitingBuilt part

end Move

theorem Final.phrase {token : Token} {reading : Reading} {formula : Formula} {tokens : List Token}
    (final : Final token reading formula) (before : reading.Built tokens) :
    ∃ nesting, Phrase .choice tokens formula nesting := by
  cases final with
  | finish spelled closed =>
      cases before with
      | operator begins built waitingBuilt part =>
          rcases waitingBuilt.settleAll part with ⟨outer, whole⟩
          obtain ⟨around, all, nesting, split, kept, phrase⟩ :=
            built.close (whole.loosen .choice (by decide))
          rw [closed] at kept phrase
          cases kept
          rw [← split]
          exact ⟨nesting, phrase⟩

theorem Reading.Built.follow {limits : Limits} {reading after : Reading}
    {before tokens : List Token} (built : reading.Built before)
    (plain : ∀ token ∈ tokens, token.Plain)
    (led : reading.follow limits tokens = .next after) : after.Built (before ++ tokens) := by
  induction tokens generalizing reading before with
  | nil =>
      cases led
      simpa using built
  | cons token rest ih =>
      rcases Reading.follow_cons_eq_next led with ⟨following, taken, later⟩
      rcases Reading.step_eq_next_iff.mp taken with ⟨deepens, move, -⟩
      have once := move.built (plain token List.mem_cons_self) built
      have tailPlain : ∀ other ∈ rest, other.Plain :=
        fun other member => plain other (List.mem_cons_of_mem token member)
      have whole := ih once tailPlain later
      simpa using whole

theorem Reading.built_initial : Reading.initial.Built [] := .beginning .outermost

end PluralRule
