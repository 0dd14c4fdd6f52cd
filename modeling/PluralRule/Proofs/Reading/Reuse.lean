import Mathlib.Logic.Function.Iterate
import PluralRule.Formula.Reader
import PluralRule.Proofs.Reading.Levels

/-!
Readers that are run again. A run goes on where the one before it stopped, with
every level of nesting closed, whatever became of that one, and no run takes the
end. Main statement: each answer is that of a new reader on the tokens that are
left, a reader that has come to the end asks for an operand from then on, and
the answers stay the same from the first run on that takes no token.
-/

namespace PluralRule

namespace Reading

variable {limits : Limits} {reading : Reading} {token finish : Token} {tokens rest : List Token}
  {formula : Formula}

theorem step_of_finish (limits : Limits) (reading : Reading) (ends : token.kind = .finish) :
    (∃ formula, reading.step limits token = .accept formula) ∨
      reading.step limits token = .blame := by
  cases reading with
  | beginning context => exact Or.inr (by simp [step, takeOperand, ends])
  | operand context start waiting => exact Or.inr (by simp [step, takeOperand, ends])
  | operator context start waiting value =>
      simp only [step, takeOperator, takeEnd, ends, Token.Kind.operation?, reduceCtorEq, if_false]
      split <;> simp_all

/-- A run stops in front of the first end or before, and does not see what is behind it. -/
theorem run_ended (limits : Limits) (reading : Reading) (front : List Token)
    (ends : finish.kind = .finish) :
    ∃ taken ≤ front.length, ∀ behind, run limits reading (front ++ finish :: behind) =
      ((run limits reading (front ++ [finish])).1, front.drop taken ++ finish :: behind) := by
  induction front generalizing reading with
  | nil =>
      refine ⟨0, Nat.le_refl 0, fun behind => ?_⟩
      rcases step_of_finish limits reading ends with ⟨formula, accepted⟩ | blamed
      · simp [run, accepted]
      · simp [run, blamed]
  | cons token rest ih =>
      cases stepped : reading.step limits token with
      | next following =>
          obtain ⟨taken, within, ran⟩ := ih following
          refine ⟨taken + 1, Nat.succ_le_succ within, fun behind => ?_⟩
          simp only [List.cons_append, run, stepped, ran behind, List.drop_succ_cons]
      | accept formula =>
          exact ⟨0, Nat.zero_le _, fun behind => by simp [run, stepped]⟩
      | blame => exact ⟨0, Nat.zero_le _, fun behind => by simp [run, stepped]⟩
      | fail fault =>
          exact ⟨1, Nat.succ_le_succ (Nat.zero_le _), fun behind => by simp [run, stepped]⟩

theorem run_ok_stops (read : (run limits reading tokens).1 = .ok formula) :
    ∃ finish tail, (run limits reading tokens).2 = finish :: tail ∧ finish.kind = .finish := by
  induction tokens generalizing reading with
  | nil => cases read
  | cons token rest ih =>
      rcases final_or_move_of_accepted read with final | ⟨following, -, -, -, taken, later⟩
      · have accepted := final.step_eq limits
        cases final with
        | finish spelled closed => exact ⟨token, rest, by simp only [run, accepted], spelled⟩
      · simp only [run, taken]
        exact ih later

theorem run_of_unmoved (stays : (initial.run limits (token :: rest)).2 = token :: rest) :
    (initial.run limits (token :: rest)).1 = .error (.unexpected .operand token) := by
  cases stepped : initial.step limits token with
  | next following =>
      simp only [run, stepped] at stays
      have shorter := (run_suffix limits following rest).length_le
      rw [stays, List.length_cons] at shorter
      exact absurd shorter (Nat.not_succ_le_self _)
  | accept formula =>
      have read : (initial.run limits (token :: rest)).1 = .ok formula := by
        simp only [run, stepped]
      obtain ⟨finish, tail, stopped, ends⟩ := run_ok_stops read
      -- The end is no operand, so nothing that begins there is accepted.
      rw [stays, List.cons.injEq] at stopped
      rw [← stopped.1] at ends
      simp [initial, step, takeOperand, ends] at stepped
  | blame =>
      simp only [run, stepped]
      rfl
  | fail fault =>
      simp only [run, stepped] at stays
      exact absurd (congrArg List.length stays) (by simp)

end Reading

namespace Reader

@[simp]
theorem start_limits (limits : Limits) (tokens : List Token) :
    (start limits tokens).limits = limits :=
  rfl

@[simp]
theorem start_tokens (limits : Limits) (tokens : List Token) :
    (start limits tokens).tokens = tokens :=
  rfl

@[simp]
theorem start_levels (limits : Limits) (tokens : List Token) :
    (start limits tokens).levels = 0 :=
  rfl

def after (reader : Reader) (count : Nat) : Reader :=
  (fun current => current.run.2)^[count] reader

def answer (reader : Reader) (count : Nat) : Except Fault Formula := (reader.after count).run.1

def cursor (reader : Reader) (count : Nat) : Nat :=
  reader.tokens.length - (reader.after count).tokens.length

/-- The next run reads the formula up to the end, whether or not its measures are allowed. -/
def Completes (reader : Reader) (formula : Formula) : Prop :=
  (Reading.initial.run reader.limits reader.tokens).1 = .ok formula

theorem after_succ (reader : Reader) (count : Nat) :
    reader.after (count + 1) = (reader.after count).run.2 :=
  Function.iterate_succ_apply' _ count reader

theorem after_add (reader : Reader) (count more : Nat) :
    reader.after (count + more) = (reader.after count).after more := by
  rw [Nat.add_comm]
  exact Function.iterate_add_apply _ more count reader

theorem answers_eq (reader : Reader) (count : Nat) :
    answers count reader = (List.range count).map reader.answer := by
  induction count generalizing reader with
  | zero => rfl
  | succ count ih =>
      rw [answers, ih, List.range_succ_eq_map, List.map_cons, List.map_map]
      rfl

/-- A reader whose counter stands at zero goes by the nesting, and the counter stays there. -/
theorem run_eq {reader : Reader} (closed : reader.levels = 0) :
    reader.run =
      ((Reading.initial.run reader.limits reader.tokens).1.bind (Formula.measured reader.limits),
        ⟨reader.limits, (Reading.initial.run reader.limits reader.tokens).2, 0⟩) := by
  simp only [run, closed, Reading.counted_initial]

section Closed

variable {reader : Reader} {count : Nat} {formula : Formula} (closed : reader.levels = 0)

include closed

theorem after_keeps (count : Nat) :
    (reader.after count).limits = reader.limits ∧
      (reader.after count).tokens <:+ reader.tokens ∧ (reader.after count).levels = 0 := by
  induction count with
  | zero => exact ⟨rfl, List.suffix_refl _, closed⟩
  | succ count ih =>
      obtain ⟨limits, suffix, level⟩ := ih
      rw [after_succ, run_eq level]
      exact ⟨limits, (Reading.run_suffix _ _ _).trans suffix, rfl⟩

theorem after_eq (count : Nat) :
    reader.after count = .start reader.limits (reader.tokens.drop (reader.cursor count)) := by
  obtain ⟨limits, suffix, level⟩ := after_keeps closed count
  rw [start, ← limits, cursor, ← List.suffix_iff_eq_drop.mp suffix, ← level]

theorem answer_eq (count : Nat) :
    reader.answer count =
      (Reading.initial.run reader.limits (reader.after count).tokens).1.bind
        (Formula.measured reader.limits) := by
  obtain ⟨limits, -, level⟩ := after_keeps closed count
  rw [answer, run_eq level, limits]

theorem cursor_le_succ (count : Nat) : reader.cursor count ≤ reader.cursor (count + 1) := by
  obtain ⟨-, -, level⟩ := after_keeps closed count
  have shorter := (Reading.run_suffix (reader.after count).limits Reading.initial
    (reader.after count).tokens).length_le
  rw [cursor, cursor, after_succ, run_eq level]
  exact Nat.sub_le_sub_left shorter _

theorem answer_eq_measured (completes : (reader.after count).Completes formula) :
    reader.answer count = Formula.measured reader.limits formula := by
  rw [Completes, (after_keeps closed count).1] at completes
  rw [answer_eq closed, completes]
  rfl

theorem completes_of_answer (answered : reader.answer count = .ok formula) :
    (reader.after count).Completes formula := by
  have bound := (answer_eq closed count).symm.trans answered
  rw [Completes, (after_keeps closed count).1]
  cases read : (Reading.initial.run reader.limits (reader.after count).tokens).1 with
  | ok whole =>
      rw [read] at bound
      have same := (Formula.measured_eq_ok_iff _ whole formula).mp bound
      rw [same.1]
  | error fault =>
      rw [read] at bound
      cases bound

/-- A run that takes no token leaves the reader as it is, and so does every run behind it. -/
theorem after_of_unmoved (stays : reader.cursor (count + 1) = reader.cursor count) (more : Nat) :
    reader.after (count + more) = reader.after count := by
  have fixed : (reader.after count).run.2 = reader.after count := by
    rw [← after_succ, after_eq closed, stays, ← after_eq closed]
  rw [after_add]
  exact Function.iterate_fixed fixed more

theorem answer_of_unmoved (stays : reader.cursor (count + 1) = reader.cursor count)
    {later : Nat} (behind : count ≤ later) : reader.answer later = reader.answer count := by
  obtain ⟨more, rfl⟩ := Nat.exists_eq_add_of_le behind
  rw [answer, after_of_unmoved closed stays more, answer]

theorem answer_of_unmoved_eq {token : Token} {rest : List Token}
    (left : (reader.after count).tokens = token :: rest)
    (stays : reader.cursor (count + 1) = reader.cursor count) :
    reader.answer count = .error (.unexpected .operand token) := by
  obtain ⟨limits, -, level⟩ := after_keeps closed count
  have fixed := congrArg Reader.tokens (after_of_unmoved closed stays 1)
  rw [after_succ, run_eq level, left, limits] at fixed
  rw [answer_eq closed, left, Reading.run_of_unmoved fixed]
  rfl

/-- Every run takes a token up to the first that takes none. -/
theorem le_cursor_or_unmoved (count : Nat) :
    count ≤ reader.cursor count ∨
      ∃ earlier < count, reader.cursor (earlier + 1) = reader.cursor earlier := by
  induction count with
  | zero => exact Or.inl (Nat.zero_le _)
  | succ count ih =>
      rcases ih with taken | ⟨earlier, before, stays⟩
      · have grows := cursor_le_succ closed count
        rcases Nat.lt_or_eq_of_le grows with more | same
        · exact Or.inl (by omega)
        · exact Or.inr ⟨count, Nat.lt_succ_self count, same.symm⟩
      · exact Or.inr ⟨earlier, Nat.lt_succ_of_lt before, stays⟩

end Closed

section Ended

variable {limits : Limits} {front behind : List Token} {finish : Token}

theorem after_ended (limits : Limits) (front : List Token) (ends : finish.kind = .finish)
    (count : Nat) :
    ∃ taken ≤ front.length, ∀ behind, (start limits (front ++ finish :: behind)).after count =
      start limits (front.drop taken ++ finish :: behind) := by
  induction count with
  | zero => exact ⟨0, Nat.zero_le _, fun behind => rfl⟩
  | succ count ih =>
      obtain ⟨taken, within, reached⟩ := ih
      obtain ⟨more, inside, ran⟩ :=
        Reading.run_ended limits Reading.initial (front.drop taken) ends
      rw [List.length_drop] at inside
      refine ⟨taken + more, by omega, fun behind => ?_⟩
      rw [after_succ, reached behind, run_eq (start_levels _ _)]
      simp only [start, ran behind, List.drop_drop]

theorem cursor_of_after {taken count : Nat} (within : taken ≤ front.length)
    (reached : (start limits (front ++ finish :: behind)).after count =
      start limits (front.drop taken ++ finish :: behind)) :
    (start limits (front ++ finish :: behind)).cursor count = taken := by
  simp only [cursor, reached, start_tokens, List.length_append, List.length_cons, List.length_drop]
  omega

theorem cursor_le (ends : finish.kind = .finish) (count : Nat) :
    (start limits (front ++ finish :: behind)).cursor count ≤ front.length := by
  obtain ⟨taken, within, reached⟩ := after_ended limits front ends count
  rw [cursor_of_after within (reached behind)]
  exact within

theorem answer_ended (ends : finish.kind = .finish) (others : List Token) (count : Nat) :
    (start limits (front ++ finish :: others)).answer count =
        (start limits (front ++ finish :: behind)).answer count ∧
      (start limits (front ++ finish :: others)).cursor count =
        (start limits (front ++ finish :: behind)).cursor count := by
  obtain ⟨taken, within, reached⟩ := after_ended limits front ends count
  constructor
  · obtain ⟨more, inside, ran⟩ :=
      Reading.run_ended limits Reading.initial (front.drop taken) ends
    rw [answer, answer, reached others, reached behind, run_eq (start_levels _ _),
      run_eq (start_levels _ _)]
    simp only [start_limits, start_tokens, ran others, ran behind]
  · rw [cursor_of_after within (reached others), cursor_of_after within (reached behind)]

theorem answer_at_end (ends : finish.kind = .finish) {count later : Nat}
    (arrived : (start limits (front ++ finish :: behind)).cursor count = front.length)
    (after : count ≤ later) :
    (start limits (front ++ finish :: behind)).answer later =
      .error (.unexpected .operand finish) := by
  have left : (start limits (front ++ finish :: behind)).after count =
      start limits (finish :: behind) := by
    rw [after_eq (start_levels _ _), arrived, start_limits, start_tokens, List.drop_left]
  have blamed : Reading.initial.run limits (finish :: behind) =
      (.error (.unexpected .operand finish), finish :: behind) := by
    simp [Reading.run, Reading.initial, Reading.step, Reading.takeOperand, Reading.expected, ends]
  have stays : (start limits (front ++ finish :: behind)).cursor (count + 1) =
      (start limits (front ++ finish :: behind)).cursor count := by
    rw [cursor, cursor, after_succ, left, run_eq (start_levels _ _)]
    simp only [start_limits, start_tokens, blamed]
  rw [answer_of_unmoved (start_levels _ _) stays after, answer, left, run_eq (start_levels _ _)]
  simp only [start_limits, start_tokens, blamed]
  rfl

theorem cursor_of_completes (unended : ∀ token ∈ front, token.kind ≠ .finish)
    (ends : finish.kind = .finish) {count : Nat} {formula : Formula}
    (completes : ((start limits (front ++ finish :: behind)).after count).Completes formula) :
    (start limits (front ++ finish :: behind)).cursor (count + 1) = front.length := by
  obtain ⟨last, tail, stopped, final⟩ := Reading.run_ok_stops completes
  obtain ⟨taken, within, reached⟩ := after_ended limits front ends (count + 1)
  have left := reached behind
  obtain ⟨-, -, level⟩ := after_keeps (start_levels limits (front ++ finish :: behind)) count
  rw [after_succ, run_eq level] at left
  have tokens := stopped.symm.trans (congrArg Reader.tokens left)
  rw [cursor_of_after within (reached behind)]
  -- The next token ends the list, so it is none of those in front of the first end.
  cases rest : front.drop taken with
  | nil =>
      have whole := List.drop_eq_nil_iff.mp rest
      omega
  | cons token others =>
      rw [rest, start_tokens, List.cons_append, List.cons.injEq] at tokens
      have member : token ∈ front := by
        apply List.mem_of_mem_drop (i := taken)
        rw [rest]
        exact List.mem_cons_self
      rw [tokens.1] at final
      exact absurd final (unended token member)

/-- As many runs as there are tokens in front of the end come to it or to a run that takes none. -/
theorem answer_of_length_le (ends : finish.kind = .finish) {count : Nat}
    (enough : front.length ≤ count) :
    (start limits (front ++ finish :: behind)).answer count =
      (start limits (front ++ finish :: behind)).answer front.length := by
  have closed := start_levels limits (front ++ finish :: behind)
  rcases le_cursor_or_unmoved closed front.length with taken | ⟨earlier, before, stays⟩
  · have arrived := Nat.le_antisymm (cursor_le ends front.length) taken
    rw [answer_at_end ends arrived enough, answer_at_end ends arrived (Nat.le_refl _)]
  · rw [answer_of_unmoved closed stays (by omega),
      answer_of_unmoved closed stays (Nat.le_of_lt before)]

end Ended

/-- A reader can be run again whatever became of the runs before. The counter of
levels is back at zero behind each run, and a run that begins there does the same
as one that goes by the nesting. The cursor goes forward up to the first
end, what is behind that end is all the same, and each answer is that of a new
reader on the tokens from the cursor on. Behind a formula, and as soon as a run
takes no token, an operand is asked for in every run. -/
theorem answer_reused (reader : Reader) (front behind : List Token) (finish : Token)
    (spelled : reader = start reader.limits (front ++ finish :: behind))
    (unended : ∀ token ∈ front, token.kind ≠ .finish) (ends : finish.kind = .finish) :
    (∀ count, answers count reader = (List.range count).map reader.answer) ∧
      (∀ count, (reader.after count).levels = 0 ∧
        Reading.initial.counted reader.limits 0 (reader.after count).tokens =
          (Reading.initial.run reader.limits (reader.after count).tokens, 0)) ∧
      (∀ count, reader.cursor count ≤ reader.cursor (count + 1) ∧
        reader.cursor count ≤ front.length) ∧
      (∀ others count,
        (start reader.limits (front ++ finish :: others)).answer count = reader.answer count ∧
          (start reader.limits (front ++ finish :: others)).cursor count =
            reader.cursor count) ∧
      (∀ count, reader.answer count =
        Formula.ofTokens reader.limits (reader.tokens.drop (reader.cursor count))) ∧
      (∀ count formula, reader.answer count = .ok formula →
        (reader.after count).Completes formula) ∧
      (∀ count formula, (reader.after count).Completes formula →
        reader.answer count = Formula.measured reader.limits formula ∧
          ∀ later, count < later →
            reader.answer later = .error (.unexpected .operand finish)) ∧
      (∀ [Writing] source, ∃ report, (Fault.unexpected .operand finish).report source =
        some report ∧
          report.details = .unexpected (some "expression") (some "end of expression")) ∧
      (∀ count, reader.cursor (count + 1) = reader.cursor count →
        (∃ token, reader.answer count = .error (.unexpected .operand token)) ∧
          ∀ later, count ≤ later → reader.answer later = reader.answer count) ∧
      ∀ count, front.length ≤ count → reader.answer count = reader.answer front.length := by
  generalize reader.limits = limits at spelled ⊢
  subst spelled
  have closed := start_levels limits (front ++ finish :: behind)
  have bounded (count : Nat) :
      (start limits (front ++ finish :: behind)).cursor count ≤ front.length :=
    cursor_le ends count
  refine ⟨answers_eq _, fun count => ⟨(after_keeps closed count).2.2, Reading.counted_initial _ _⟩,
    fun count => ⟨cursor_le_succ closed count, bounded count⟩,
    fun others count => answer_ended ends others count, fun count => ?_,
    fun count formula => completes_of_answer closed,
    fun count formula completes => ⟨answer_eq_measured closed completes, fun later after => ?_⟩,
    fun source => ?_, fun count stays => ⟨?_, fun later => answer_of_unmoved closed stays⟩,
    fun count arrived => ?_⟩
  · rw [answer, after_eq closed]
    rfl
  · exact answer_at_end ends (cursor_of_completes unended ends completes) after
  · simp [Fault.report, Expectation.wording, Token.described, ends]
  · obtain ⟨taken, within, reached⟩ := after_ended limits front ends count
    have left : ∃ token rest, front.drop taken ++ finish :: behind = token :: rest :=
      List.exists_cons_of_ne_nil (by simp)
    obtain ⟨token, rest, split⟩ := left
    have tokens := congrArg Reader.tokens (reached behind)
    exact ⟨token, answer_of_unmoved_eq closed (tokens.trans split) stays⟩
  · exact answer_of_length_le ends arrived

def oversizedFirst : List Token :=
  [⟨.number, "99999999999999999999", 0⟩, ⟨.quantity, "n", 21⟩]

theorem answer_reused_oversizedFirst :
    (∀ token ∈ oversizedFirst, token.kind ≠ .finish) ∧
      ∃ reader : Reader, reader = start reader.limits
          (oversizedFirst ++ Token.finish 22 :: [⟨.closing, ")", 23⟩]) ∧
        reader.answer 0 = .error (.literal ⟨.number, "99999999999999999999", 0⟩) ∧
        reader.answer 1 = .ok (.quantity 21) ∧
        ∀ later, 1 < later →
          reader.answer later = .error (.unexpected .operand (Token.finish 22)) := by
  have unended : ∀ token ∈ oversizedFirst, token.kind ≠ .finish := by decide
  let reader : Reader :=
    start ⟨0, 1, 1⟩ (oversizedFirst ++ Token.finish 22 :: [⟨.closing, ")", 23⟩])
  obtain ⟨-, -, -, -, -, completes, finished, -⟩ :=
    answer_reused reader oversizedFirst _ (Token.finish 22) rfl unended rfl
  have read : reader.answer 1 = .ok (.quantity 21) :=
    (Formula.measured_eq_ok_iff _ _ _).mpr ⟨rfl, by decide, by decide⟩
  exact ⟨unended, reader, rfl, rfl, read, (finished 1 _ (completes 1 _ read)).2⟩

end Reader

end PluralRule
