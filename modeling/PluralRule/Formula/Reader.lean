import PluralRule.Formula.Levels
import PluralRule.Formula.Measure
import PluralRule.Token.Scanner

/-!
Readers: formulas from tokens and from sources. A formula that has been read
as a whole is measured against the limits, first its nodes and then its depth.
-/

namespace PluralRule

structure Reader where
  limits : Limits
  tokens : List Token
  /-- The counter of open levels. It is kept from one run to the next. -/
  levels : Int
  deriving DecidableEq, Repr

namespace Formula

def measured (limits : Limits) (formula : Formula) : Except Fault Formula :=
  match limits.check .nodes formula.nodeCount with
  | .error breach => .error (.limit breach)
  | .ok () =>
      match limits.check .depth formula.treeDepth with
      | .error breach => .error (.limit breach)
      | .ok () => .ok formula

end Formula

namespace Reader

def start (limits : Limits) (tokens : List Token) : Reader := ⟨limits, tokens, 0⟩

def run (reader : Reader) : Except Fault Formula × Reader :=
  let ((outcome, rest), levels) :=
    Reading.initial.counted reader.limits reader.levels reader.tokens
  (outcome.bind (Formula.measured reader.limits), { reader with tokens := rest, levels })

def answers : Nat → Reader → List (Except Fault Formula)
  | 0, _ => []
  | count + 1, reader => reader.run.1 :: answers count reader.run.2

end Reader

namespace Formula

def ofTokens (limits : Limits) (tokens : List Token) : Except Fault Formula :=
  (Reader.start limits tokens).run.1

def ofSource (limits : Limits) (source : String) : Except Fault Formula := do
  let tokens ← Token.ofSource limits source
  ofTokens limits tokens

theorem measured_eq_ok_iff (limits : Limits) (formula result : Formula) :
    measured limits formula = .ok result ↔
      formula = result ∧ (formula.size : Int) ≤ limits.maxNodes ∧
        (formula.depth : Int) ≤ limits.maxDepth := by
  simp only [measured, Limits.check, Limits.limit, nodeCount_eq_size, treeDepth_eq_depth]
  by_cases wide : limits.maxNodes < formula.size
  · rw [if_pos wide]
    constructor
    · intro impossible
      cases impossible
    · rintro ⟨-, narrow, -⟩
      omega
  · rw [if_neg wide]
    by_cases deep : limits.maxDepth < formula.depth
    · simp only [if_pos deep]
      constructor
      · intro impossible
        cases impossible
      · rintro ⟨-, -, shallow⟩
        omega
    · simp only [if_neg deep]
      constructor
      · intro accepted
        exact ⟨Except.ok.inj accepted, by omega, by omega⟩
      · rintro ⟨rfl, -, -⟩
        rfl

end Formula

end PluralRule
