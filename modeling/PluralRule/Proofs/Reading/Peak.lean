import PluralRule.Proofs.Reading.Acceptance

/-!
The peak of a reading: the most levels of nesting that are open at once while
tokens are read. Main statements: tokens that are accepted under some limits
are accepted under others exactly when those allow the peak, and otherwise
refused for the first level that is too deep; the peak is the nesting of the
phrase that is read; and whatever else refuses tokens does not depend on limits.
-/

namespace PluralRule

/-- The outcomes are the same, unless one of them is the report of a breached limit. -/
def SameUpToLimits (first second : Except Fault Formula) : Prop :=
  first = second ∨ (∃ breach, first = .error (.limit breach)) ∨
    ∃ breach, second = .error (.limit breach)

namespace Reading

/-- The most levels of nesting that are open at once while the tokens are read. -/
def peak (limits : Limits) : Reading → List Token → Nat
  | reading, [] => reading.nesting
  | reading, token :: rest =>
      match reading.step limits token with
      | .next following => max reading.nesting (peak limits following rest)
      | _ => reading.nesting

variable {ample limits : Limits} {reading following : Reading} {token : Token}
  {tokens rest : List Token} {formula : Formula}

theorem peak_of_next (taken : reading.step limits token = .next following) :
    peak limits reading (token :: rest) = max reading.nesting (peak limits following rest) := by
  simp only [peak, taken]

theorem peak_of_final (final : Final token reading formula) :
    peak limits reading (token :: rest) = reading.nesting := by
  simp only [peak, final.step_eq limits]

theorem nesting_le_peak (limits : Limits) (reading : Reading) (tokens : List Token) :
    reading.nesting ≤ peak limits reading tokens := by
  cases tokens with
  | nil => exact Nat.le_refl _
  | cons token rest =>
      simp only [peak]
      split
      · exact Nat.le_max_left _ _
      · exact Nat.le_refl _

theorem run_of_admits (accepted : (run ample reading tokens).1 = .ok formula)
    (admitted : limits.Admits 0 (peak ample reading tokens)) :
    (run limits reading tokens).1 = .ok formula := by
  induction tokens generalizing reading with
  | nil => cases accepted
  | cons token rest ih =>
      rcases final_or_move_of_accepted accepted with
        final | ⟨following, deepens, move, -, taken, later⟩
      · simp only [run, final.step_eq limits]
      · rw [peak_of_next taken] at admitted
        have inside := nesting_le_peak ample following rest
        -- The peak is at least the level that the move leads to, so this level is allowed.
        have again : reading.step limits token = .next following := by
          refine step_eq_next_iff.mpr ⟨deepens, move, ?_⟩
          intro deep
          have positive := move.nesting_pos deep
          unfold Limits.Admits at admitted
          omega
        simp only [run, again]
        apply ih later
        unfold Limits.Admits at admitted ⊢
        omega

theorem run_of_not_admits (accepted : (run ample reading tokens).1 = .ok formula)
    (refused : ¬ limits.Admits 0 (peak ample reading tokens))
    (allowed : (reading.nesting : Int) ≤ max limits.maxDepth 0) :
    (run limits reading tokens).1 = .error (.limit (limits.tooDeep 0)) := by
  induction tokens generalizing reading with
  | nil => cases accepted
  | cons token rest ih =>
      rcases final_or_move_of_accepted accepted with
        final | ⟨following, deepens, move, -, taken, later⟩
      · rw [peak_of_final final] at refused
        unfold Limits.Admits at refused
        omega
      · rw [peak_of_next taken] at refused
        rcases step_of_move move limits with ⟨within, again⟩ | ⟨rfl, exceeds, failed⟩
        · simp only [run, again]
          -- The level of the next reading is allowed, so the peak lies in the tokens behind.
          have inside : (following.nesting : Int) ≤ max limits.maxDepth 0 := by
            cases deepens with
            | false =>
                have flat := move.nesting_le_add
                rw [Bool.toNat_false] at flat
                omega
            | true =>
                have level := within rfl
                omega
          apply ih later _ inside
          unfold Limits.Admits at refused ⊢
          omega
        · have positive := move.nesting_pos rfl
          have once := move.nesting_le
          simp only [run, failed, Limits.tooDeep]
          congr 3
          omega

theorem run_eq_ok_iff_admits (accepted : (run ample reading tokens).1 = .ok formula)
    (allowed : (reading.nesting : Int) ≤ max limits.maxDepth 0) :
    (run limits reading tokens).1 = .ok formula ↔
      limits.Admits 0 (peak ample reading tokens) := by
  constructor
  · intro read
    apply Classical.byContradiction
    intro refused
    rw [run_of_not_admits accepted refused allowed] at read
    cases read
  · exact run_of_admits accepted

theorem run_sameUpToLimits (limits ample : Limits) (reading : Reading) (tokens : List Token) :
    SameUpToLimits (run limits reading tokens).1 (run ample reading tokens).1 := by
  induction tokens generalizing reading with
  | nil => exact Or.inl rfl
  | cons token rest ih =>
      rcases moves_or_stops token reading with ⟨following, deepens, move⟩ | stops
      · rcases step_of_move move limits with ⟨-, taken⟩ | ⟨-, -, failed⟩
        · rcases step_of_move move ample with ⟨-, again⟩ | ⟨-, -, failed⟩
          · simp only [run, taken, again]
            exact ih following
          · exact Or.inr (Or.inr ⟨_, by simp only [run, failed]; rfl⟩)
        · exact Or.inr (Or.inl ⟨_, by simp only [run, failed]; rfl⟩)
      · apply Or.inl
        cases stops with
        | final whole final => simp only [run, final.step_eq]
        | blame unfit => simp only [run, unfit]
        | literal expects overflows => simp only [run, overflows]

end Reading

/-- What is counted while a phrase is read is the nesting that the grammar gives it. -/
theorem Phrase.peak_eq {ample : Limits} {tokens : List Token} {formula : Formula} {nesting : Nat}
    (phrase : Phrase .choice tokens formula nesting) {finish : Token}
    (ends : finish.kind = .finish) (admitted : ample.Admits 0 nesting) :
    Reading.initial.peak ample (tokens ++ [finish]) = nesting := by
  have accepted : (Reading.initial.run ample (tokens ++ [finish])).1 = .ok formula :=
    congrArg Prod.fst (phrase.run_eq_ok ample ends [] admitted)
  have same (limits : Limits) :
      limits.Admits 0 (Reading.initial.peak ample (tokens ++ [finish])) ↔
        limits.Admits 0 nesting := by
    rw [← Reading.run_eq_ok_iff_admits accepted (Int.le_max_right _ _)]
    constructor
    · intro read
      apply Classical.byContradiction
      intro refused
      rw [phrase.run_eq_error limits [finish] refused] at read
      cases read
    · intro allowed
      exact congrArg Prod.fst (phrase.run_eq_ok limits ends [] allowed)
  -- Limits at the one of the two numbers allow the other.
  have below := (same ⟨0, nesting, 0⟩).mpr (Or.inr (by simp))
  have above := (same ⟨0, Reading.initial.peak ample (tokens ++ [finish]), 0⟩).mp
    (Or.inr (by simp))
  simp only [Limits.Admits] at below above
  omega

end PluralRule
