import PluralRule.Proofs.Reading.Move

/-!
Readings followed through lists of tokens. A run follows its tokens up to one
that stops the reading, and the token at the end of a formula always does.
Main statements: how runs go on behind a list that is followed, that limits
which allow more change nothing that was allowed, and what stops a run.
-/

namespace PluralRule.Reading

/-- Where a list of tokens leads, or what the first token does that stops the reading. -/
def follow (limits : Limits) : Reading → List Token → Step
  | reading, [] => .next reading
  | reading, token :: rest =>
      match reading.step limits token with
      | .next following => follow limits following rest
      | stopped => stopped

variable {limits : Limits} {reading after : Reading}

theorem follow_cons_of_next {token : Token} {following : Reading} (rest : List Token)
    (taken : reading.step limits token = .next following) :
    follow limits reading (token :: rest) = follow limits following rest := by
  simp only [follow, taken]

theorem follow_cons_of_fail {token : Token} {fault : Fault} (rest : List Token)
    (failed : reading.step limits token = .fail fault) :
    follow limits reading (token :: rest) = .fail fault := by
  simp only [follow, failed]

theorem follow_cons_eq_next {token : Token} {rest : List Token}
    (led : follow limits reading (token :: rest) = .next after) :
    ∃ following, reading.step limits token = .next following ∧
      follow limits following rest = .next after := by
  cases taken : reading.step limits token <;> simp only [follow, taken] at led
  case next following => exact ⟨following, rfl, led⟩
  all_goals cases led

theorem follow_cons_eq_fail {token : Token} {rest : List Token} {fault : Fault}
    (failed : follow limits reading (token :: rest) = .fail fault) :
    reading.step limits token = .fail fault ∨
      ∃ following, reading.step limits token = .next following ∧
        follow limits following rest = .fail fault := by
  cases taken : reading.step limits token <;> simp only [follow, taken] at failed
  case next following => exact Or.inr ⟨following, rfl, failed⟩
  case fail other =>
    cases failed
    exact Or.inl rfl
  all_goals cases failed

theorem follow_append_of_next {tokens : List Token} (rest : List Token)
    (led : follow limits reading tokens = .next after) :
    follow limits reading (tokens ++ rest) = follow limits after rest := by
  induction tokens generalizing reading with
  | nil =>
      cases led
      rfl
  | cons token tail ih =>
      rcases follow_cons_eq_next led with ⟨following, taken, later⟩
      rw [List.cons_append, follow_cons_of_next (tail ++ rest) taken]
      exact ih later

theorem follow_append_of_fail {tokens : List Token} {fault : Fault} (rest : List Token)
    (failed : follow limits reading tokens = .fail fault) :
    follow limits reading (tokens ++ rest) = .fail fault := by
  induction tokens generalizing reading with
  | nil => cases failed
  | cons token tail ih =>
      rcases follow_cons_eq_fail failed with stuck | ⟨following, taken, later⟩
      · exact follow_cons_of_fail (tail ++ rest) stuck
      · rw [List.cons_append, follow_cons_of_next (tail ++ rest) taken]
        exact ih later

theorem run_of_follow_next {tokens : List Token} (rest : List Token)
    (led : follow limits reading tokens = .next after) :
    run limits reading (tokens ++ rest) = run limits after rest := by
  induction tokens generalizing reading with
  | nil =>
      cases led
      rfl
  | cons token tail ih =>
      rcases follow_cons_eq_next led with ⟨following, taken, later⟩
      simp only [List.cons_append, run, taken]
      exact ih later

theorem run_of_follow_fail {tokens : List Token} {fault : Fault} (rest : List Token)
    (failed : follow limits reading tokens = .fail fault) :
    (run limits reading (tokens ++ rest)).1 = .error fault := by
  induction tokens generalizing reading with
  | nil => cases failed
  | cons token tail ih =>
      rcases follow_cons_eq_fail failed with stuck | ⟨following, taken, later⟩
      · simp only [List.cons_append, run, stuck]
      · simp only [List.cons_append, run, taken]
        exact ih later

theorem deeper_of_le (within : (reading.nesting : Int) ≤ limits.maxDepth) :
    deeper limits reading = .next reading := by
  simp [deeper, (limits.check_eq_ok_iff .depth reading.nesting).mpr within]

theorem deeper_of_lt (exceeds : limits.maxDepth < (reading.nesting : Int)) :
    deeper limits reading = .fail (.limit ⟨.depth, limits.maxDepth, reading.nesting⟩) := by
  simp [deeper, Limits.check, Limits.limit, exceeds]

theorem step_of_move {token : Token} {following : Reading} {deepens : Bool}
    (move : Move token reading following deepens) (limits : Limits) :
    ((deepens = true → (following.nesting : Int) ≤ limits.maxDepth) ∧
        reading.step limits token = .next following) ∨
      (deepens = true ∧ limits.maxDepth < (following.nesting : Int) ∧
        reading.step limits token =
          .fail (.limit ⟨.depth, limits.maxDepth, following.nesting⟩)) := by
  have stepped := move.step_eq limits
  cases deepens with
  | false => exact Or.inl ⟨nofun, stepped⟩
  | true =>
      by_cases within : (following.nesting : Int) ≤ limits.maxDepth
      · exact Or.inl ⟨fun _ => within, stepped.trans (deeper_of_le within)⟩
      · have exceeds : limits.maxDepth < (following.nesting : Int) := Int.not_le.mp within
        exact Or.inr ⟨rfl, exceeds, stepped.trans (deeper_of_lt exceeds)⟩

theorem step_eq_next_iff {token : Token} {following : Reading} :
    reading.step limits token = .next following ↔
      ∃ deepens, Move token reading following deepens ∧
        (deepens = true → (following.nesting : Int) ≤ limits.maxDepth) := by
  constructor
  · intro taken
    rcases moves_or_stops token reading with ⟨other, deepens, move⟩ | stops
    · rcases step_of_move move limits with ⟨allowed, stepped⟩ | ⟨-, -, failed⟩
      · rw [taken] at stepped
        cases stepped
        exact ⟨deepens, move, allowed⟩
      · rw [taken] at failed
        cases failed
    · cases stops with
      | final formula final =>
          rw [final.step_eq limits] at taken
          cases taken
      | blame unfit =>
          rw [unfit limits] at taken
          cases taken
      | literal expects overflows =>
          rw [overflows limits] at taken
          cases taken
  · rintro ⟨deepens, move, allowed⟩
    rcases step_of_move move limits with ⟨-, taken⟩ | ⟨deep, exceeds, -⟩
    · exact taken
    · exact absurd (allowed deep) (Int.not_le.mpr exceeds)

theorem kind_ne_finish_of_step {token : Token} {following : Reading}
    (taken : reading.step limits token = .next following) : token.kind ≠ .finish := by
  intro ends
  rcases step_eq_next_iff.mp taken with ⟨deepens, move, -⟩
  induction move with
  | first move ih => exact ih taken
  | operation spelled settled => simp [ends, Token.Kind.operation?] at spelled
  | _ => simp_all

theorem follow_of_wider {larger : Limits} {tokens : List Token}
    (wider : limits.maxDepth ≤ larger.maxDepth)
    (led : follow limits reading tokens = .next after) :
    follow larger reading tokens = .next after := by
  induction tokens generalizing reading with
  | nil => exact led
  | cons token tail ih =>
      rcases follow_cons_eq_next led with ⟨following, taken, later⟩
      rcases step_eq_next_iff.mp taken with ⟨deepens, move, allowed⟩
      have again : reading.step larger token = .next following :=
        step_eq_next_iff.mpr ⟨deepens, move, fun deep => Int.le_trans (allowed deep) wider⟩
      rw [follow_cons_of_next tail again]
      exact ih later

theorem final_or_move_of_accepted {token : Token} {rest : List Token} {formula : Formula}
    (accepted : (run limits reading (token :: rest)).1 = .ok formula) :
    Final token reading formula ∨
      ∃ following deepens, Move token reading following deepens ∧
        (deepens = true → (following.nesting : Int) ≤ limits.maxDepth) ∧
        reading.step limits token = .next following ∧
        (run limits following rest).1 = .ok formula := by
  rcases moves_or_stops token reading with ⟨following, deepens, move⟩ | stops
  · rcases step_of_move move limits with ⟨allowed, taken⟩ | ⟨-, -, failed⟩
    · simp only [run, taken] at accepted
      exact Or.inr ⟨following, deepens, move, allowed, taken, accepted⟩
    · simp only [run, failed] at accepted
      cases accepted
  · cases stops with
    | final whole final =>
        simp only [run, final.step_eq limits] at accepted
        cases accepted
        exact Or.inl final
    | blame unfit =>
        simp only [run, unfit limits] at accepted
        cases accepted
    | literal expects overflows =>
        simp only [run, overflows limits] at accepted
        cases accepted

theorem run_of_wider {larger : Limits} {tokens : List Token} {formula : Formula}
    (wider : limits.maxDepth ≤ larger.maxDepth)
    (accepted : (run limits reading tokens).1 = .ok formula) :
    (run larger reading tokens).1 = .ok formula := by
  induction tokens generalizing reading with
  | nil => cases accepted
  | cons token tail ih =>
      rcases final_or_move_of_accepted accepted with
        final | ⟨following, deepens, move, allowed, -, later⟩
      · simp only [run, final.step_eq larger]
      · have again : reading.step larger token = .next following :=
          step_eq_next_iff.mpr ⟨deepens, move, fun deep => Int.le_trans (allowed deep) wider⟩
        simp only [run, again]
        exact ih later

theorem nesting_follow_le {tokens : List Token}
    (led : follow limits reading tokens = .next after) :
    after.nesting ≤ reading.nesting + tokens.length := by
  induction tokens generalizing reading with
  | nil =>
      cases led
      exact Nat.le_refl _
  | cons token tail ih =>
      rcases follow_cons_eq_next led with ⟨following, taken, later⟩
      rcases step_eq_next_iff.mp taken with ⟨deepens, move, -⟩
      have once := move.nesting_le
      have rest := ih later
      simp only [List.length_cons]
      omega

theorem exists_stop (limits : Limits) (reading : Reading) (tokens : List Token) (finish : Token)
    (ends : finish.kind = .finish) :
    ∃ before token rest middle, tokens ++ [finish] = before ++ token :: rest ∧
      follow limits reading before = .next middle ∧
      ∀ following, middle.step limits token ≠ .next following := by
  induction tokens generalizing reading with
  | nil =>
      exact ⟨[], finish, [], reading, rfl, rfl,
        fun following taken => kind_ne_finish_of_step taken ends⟩
  | cons token tail ih =>
      by_cases taken : ∃ following, reading.step limits token = .next following
      · obtain ⟨following, moved⟩ := taken
        rcases ih following with ⟨before, stopper, rest, middle, split, led, stuck⟩
        refine ⟨token :: before, stopper, rest, middle, ?_, ?_, stuck⟩
        · simp [split]
        · rw [follow_cons_of_next before moved]
          exact led
      · exact ⟨[], token, tail ++ [finish], reading, rfl, rfl,
          fun following moved => taken ⟨following, moved⟩⟩

theorem stops_or_exceeds {token : Token}
    (stuck : ∀ following, reading.step limits token ≠ .next following) :
    Stops token reading ∨ ∃ following, Move token reading following true ∧
      limits.maxDepth < (following.nesting : Int) ∧
      reading.step limits token =
        .fail (.limit ⟨.depth, limits.maxDepth, following.nesting⟩) := by
  rcases moves_or_stops token reading with ⟨following, deepens, move⟩ | stops
  · rcases step_of_move move limits with ⟨-, taken⟩ | ⟨rfl, exceeds, failed⟩
    · exact absurd taken (stuck following)
    · exact Or.inr ⟨following, move, exceeds, failed⟩
  · exact Or.inl stops

section Outcome

variable {middle : Reading} {before : List Token} {token : Token}

theorem run_of_final {formula : Formula} (rest : List Token)
    (led : follow limits reading before = .next middle) (final : Final token middle formula) :
    run limits reading (before ++ token :: rest) = (.ok formula, token :: rest) := by
  rw [run_of_follow_next (token :: rest) led]
  simp only [run, final.step_eq limits]

theorem run_of_blame (rest : List Token) (led : follow limits reading before = .next middle)
    (unfit : middle.step limits token = .blame) :
    run limits reading (before ++ token :: rest) =
      (.error (.unexpected middle.expected token), token :: rest) := by
  rw [run_of_follow_next (token :: rest) led]
  simp only [run, unfit]

theorem run_of_fail {fault : Fault} (rest : List Token)
    (led : follow limits reading before = .next middle)
    (failed : middle.step limits token = .fail fault) :
    run limits reading (before ++ token :: rest) = (.error fault, rest) := by
  rw [run_of_follow_next (token :: rest) led]
  simp only [run, failed]

end Outcome

end PluralRule.Reading
