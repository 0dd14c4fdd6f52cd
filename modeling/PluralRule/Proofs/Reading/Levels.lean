import PluralRule.Proofs.Reading.Follow

/-!
The counter of levels against the nesting of a reading. Each move enters and
leaves as many levels as the nesting changes by, so a reader that counts from zero
does the same as one that goes by the nesting. Main statement: its counter is back
at zero whichever way the reading ends.
-/

namespace PluralRule

namespace Reading

/-- With a counter that agrees with the reading, the run is the same and ends at zero. -/
theorem counted_eq_run (limits : Limits) (reading : Reading) (tokens : List Token) :
    counted limits reading.nesting reading tokens = (run limits reading tokens, 0) := by
  induction tokens generalizing reading with
  | nil => simp only [counted, run, Int.sub_self]
  | cons token rest ih =>
      rcases moves_or_stops token reading with ⟨following, deepens, move⟩ | stops
      · have once := move.nesting_le
        -- The counter asks what the token does where one more level has room.
        have allowed : reading.step reading.room token = .next following := by
          apply step_eq_next_iff.mpr
          refine ⟨deepens, move, fun _ => ?_⟩
          simp only [room]
          omega
        obtain ⟨entered, levels⟩ := move.levels
        have stepped := move.step_eq limits
        simp only [counted, run, allowed, entered]
        cases deepens with
        | false =>
            have level : (reading.nesting : Int) - reading.leaves token = following.nesting := by
              rw [Bool.toNat_false] at levels
              omega
            simp only [Bool.false_eq_true, if_false, level, ih, stepped]
        | true =>
            have level :
                (reading.nesting : Int) - reading.leaves token + 1 = following.nesting := by
              rw [Bool.toNat_true] at levels
              omega
            simp only [if_true, level, ih, stepped, deeper]
            cases limits.check .depth following.nesting with
            | ok granted => rfl
            | error breach => simp only [Int.sub_self]
      · cases stops with
        | final formula final =>
            simp only [counted, run, final.step_eq, final.leaves_eq, Int.sub_self]
        | blame unfit => simp only [counted, run, unfit, Int.sub_self]
        | literal expects overflows => simp only [counted, run, overflows, Int.sub_self]

theorem counted_initial (limits : Limits) (tokens : List Token) :
    counted limits 0 initial tokens = (run limits initial tokens, 0) :=
  counted_eq_run limits initial tokens

end Reading

end PluralRule
