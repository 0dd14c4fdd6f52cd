import Mathlib.Logic.Function.Iterate
import PluralRule.Proofs.Scanning.Place

/-!
Scanners that are run again. A run goes on behind the obstacle that stopped the
one before it and keeps the tokens of all runs, and at the end of the source it
adds one more token for the end. Main statement: each run finds what a new
scanner finds in the rest of the source, only so many runs fail as the source
has characters, and from the first that does not fail on none does.
-/

namespace PluralRule.Scanner

open Token (mapPosition scan)

def after (scanner : Scanner) (count : Nat) : Scanner :=
  (fun current => current.run.2)^[count] scanner

def answer (scanner : Scanner) (count : Nat) : Except Fault (List Token) :=
  (scanner.after count).run.1

/-- What there is in the part of the source that has not been scanned. -/
def ahead (scanner : Scanner) : Token.Scan :=
  scan scanner.position (scanner.source.toList.drop scanner.position)

def anew (scanner : Scanner) : Scanner :=
  start scanner.limits (String.ofList (scanner.source.toList.drop scanner.position))

structure Underway (scanner : Scanner) : Prop where
  short : (scanner.source.length : Int) ≤ scanner.limits.maxLength
  inside : scanner.position ≤ scanner.source.length

/-- How a run goes on: it comes to the end of the source and adds the end to the
tokens, or it stops behind an obstacle with the tokens in front of it added. -/
inductive Proceeds (scanner : Scanner) : Except Fault (List Token) → Scanner → Prop where
  | finished (found : List Token) (unended : ∀ token ∈ found, token.kind ≠ .finish) :
      Proceeds scanner (.ok (scanner.tokens ++ found ++ [Token.finish scanner.source.length]))
        { scanner with
          position := scanner.source.length
          tokens := scanner.tokens ++ found ++ [Token.finish scanner.source.length] }
  | stopped (found : List Token) (unended : ∀ token ∈ found, token.kind ≠ .finish)
      {place : Nat} {obstacle : Token.Obstacle} (ahead : scanner.position ≤ place)
      (wide : 1 ≤ obstacle.width) (inside : place + obstacle.width ≤ scanner.source.length) :
      Proceeds scanner (.error (.lexical place obstacle))
        { scanner with
          position := place + obstacle.width
          tokens := scanner.tokens ++ found }

/-- A run does what the first run of a new scanner on the rest of the source does,
with all places counted from the start of the source, and its report shows the source. -/
structure Resumes (scanner : Scanner) : Prop where
  answered : scanner.run.1 =
    (scanner.anew.run.1.map fun tokens =>
      scanner.tokens ++ tokens.map (mapPosition (· + (scanner.position : Int)))).mapError
        (Fault.mapPosition (· + (scanner.position : Int)))
  left : scanner.run.2 =
    { scanner with
      position := scanner.position + scanner.anew.run.2.position
      tokens := scanner.tokens ++
        scanner.anew.run.2.tokens.map (mapPosition (· + (scanner.position : Int))) }
  reported : ∀ fault, scanner.anew.run.1 = .error fault → ∀ [Writing],
    ∃ report, fault.report scanner.anew.source = some report ∧
      (fault.mapPosition (· + (scanner.position : Int))).report scanner.source =
        some { report with
          position := report.position.map (· + (scanner.position : Int))
          expression := some scanner.source }

variable {scanner next : Scanner} {outcome : Except Fault (List Token)}

theorem after_succ (scanner : Scanner) (count : Nat) :
    scanner.after (count + 1) = (scanner.after count).run.2 :=
  Function.iterate_succ_apply' _ count scanner

theorem after_add (scanner : Scanner) (count more : Nat) :
    scanner.after (count + more) = (scanner.after count).after more := by
  rw [Nat.add_comm]
  exact Function.iterate_add_apply _ more count scanner

theorem answer_succ (scanner : Scanner) (count : Nat) :
    scanner.answer (count + 1) = scanner.run.2.answer count :=
  congrArg (fun left => left.run.1) (Function.iterate_succ_apply _ count scanner)

theorem answers_eq (scanner : Scanner) (count : Nat) :
    answers count scanner = (List.range count).map scanner.answer := by
  induction count generalizing scanner with
  | zero => rfl
  | succ count ih =>
      rw [answers, ih, List.range_succ_eq_map, List.map_cons, List.map_map]
      rfl

theorem ahead_eq_shift (scanner : Scanner) :
    scanner.ahead = scanner.anew.ahead.shift scanner.position := by
  have rest : scanner.anew.source.toList.drop scanner.anew.position =
      scanner.source.toList.drop scanner.position := by
    simp [anew, start]
  rw [ahead, ahead, rest]
  exact Token.scan_eq_shift scanner.position _

section Long

variable (long : scanner.limits.maxLength < (scanner.source.length : Int))

include long

theorem run_of_long :
    scanner.run =
      (.error (.limit ⟨.length, scanner.limits.maxLength, scanner.source.length⟩), scanner) := by
  have exceeded : scanner.limits.check .length scanner.source.length =
      .error ⟨.length, scanner.limits.maxLength, scanner.source.length⟩ := if_pos long
  rw [run, exceeded]

theorem after_of_long (count : Nat) : scanner.after count = scanner :=
  Function.iterate_fixed (congrArg Prod.snd (run_of_long long)) count

end Long

theorem Proceeds.keeps (proceeds : scanner.Proceeds outcome next) (underway : scanner.Underway) :
    next.Underway ∧ next.source = scanner.source ∧ next.limits = scanner.limits ∧
      scanner.position ≤ next.position ∧ scanner.tokens <+: next.tokens := by
  cases proceeds with
  | finished found unended =>
      refine ⟨⟨underway.short, Nat.le_refl _⟩, rfl, rfl, underway.inside, ?_⟩
      rw [List.append_assoc]
      exact List.prefix_append _ _
  | stopped found unended ahead wide reached =>
      exact ⟨⟨underway.short, reached⟩, rfl, rfl, Nat.le_add_right_of_le ahead,
        List.prefix_append _ _⟩

namespace Underway

theorem run_of_clear (underway : scanner.Underway) (clear : scanner.ahead.obstacle = none) :
    scanner.run =
      (.ok (scanner.tokens ++ scanner.ahead.tokens ++ [Token.finish scanner.ahead.stop]),
        { scanner with
          position := scanner.ahead.stop
          tokens :=
            scanner.tokens ++ scanner.ahead.tokens ++ [Token.finish scanner.ahead.stop] }) := by
  have checked := (scanner.limits.check_eq_ok_iff .length scanner.source.length).mpr underway.short
  rw [ahead] at clear
  simp only [run, checked, clear, ahead]

theorem run_of_stopped (underway : scanner.Underway) {place : Nat} {obstacle : Token.Obstacle}
    (stopped : scanner.ahead.obstacle = some (place, obstacle)) :
    scanner.run =
      (.error (.lexical place obstacle),
        { scanner with
          position := scanner.ahead.stop
          tokens := scanner.tokens ++ scanner.ahead.tokens }) := by
  have checked := (scanner.limits.check_eq_ok_iff .length scanner.source.length).mpr underway.short
  rw [ahead] at stopped
  simp only [run, checked, stopped, ahead]

theorem anew (underway : scanner.Underway) : scanner.anew.Underway := by
  have short := underway.short
  refine ⟨?_, Nat.zero_le _⟩
  simp only [Scanner.anew, start, String.length_ofList, List.length_drop, String.length_toList]
  omega

theorem resumes (underway : scanner.Underway) : scanner.Resumes := by
  have moved := ahead_eq_shift scanner
  have fresh : scanner.anew.tokens = [] := rfl
  -- Both scanners find the same in the rest of the source, only counted from another place.
  cases met : scanner.anew.ahead.obstacle with
  | none =>
      have old := underway.run_of_clear (by rw [moved, Token.Scan.shift, met]; rfl)
      have new := underway.anew.run_of_clear met
      have ends : Token.finish (scanner.anew.ahead.shift scanner.position).stop =
          mapPosition (· + (scanner.position : Int)) (Token.finish scanner.anew.ahead.stop) := rfl
      rw [moved, ends] at old
      constructor
      · rw [old, new, fresh]
        exact congrArg Except.ok (by simp [Token.Scan.shift])
      · rw [old, new]
        simp [Token.Scan.shift, fresh, Nat.add_comm]
      · intro fault failed
        rw [new] at failed
        cases failed
  | some stopped =>
      obtain ⟨place, obstacle⟩ := stopped
      have old := underway.run_of_stopped (by rw [moved, Token.Scan.shift, met]; rfl)
      have new := underway.anew.run_of_stopped met
      rw [moved] at old
      constructor
      · rw [old, new]
        rfl
      · rw [old, new]
        simp [Token.Scan.shift, fresh, Nat.add_comm]
      · intro fault failed
        rw [new] at failed
        cases failed
        intro writing
        exact ⟨_, rfl, rfl⟩

theorem proceeds (underway : scanner.Underway) : scanner.Proceeds scanner.run.1 scanner.run.2 := by
  have inside := underway.inside
  have whole : scanner.position + (scanner.source.toList.drop scanner.position).length =
      scanner.source.length := by
    rw [List.length_drop, String.length_toList]
    omega
  have unended := Token.scan_unended scanner.position
    (scanner.source.toList.drop scanner.position)
  cases met : scanner.ahead.obstacle with
  | none =>
      have stop := Token.scan_stop_of_clear _ _ met
      rw [underway.run_of_clear met, ahead, stop, whole]
      exact .finished _ unended
  | some stopped =>
      obtain ⟨place, obstacle⟩ := stopped
      obtain ⟨ahead, stop, wide⟩ := Token.scan_stopped _ met
      have bounds := (Token.scan_stop_bounds scanner.position
        (scanner.source.toList.drop scanner.position)).2
      rw [underway.run_of_stopped met, Scanner.ahead, stop]
      exact .stopped _ unended ahead wide (by omega)

theorem after_keeps (underway : scanner.Underway) (count : Nat) :
    (scanner.after count).Underway ∧ (scanner.after count).source = scanner.source ∧
      (scanner.after count).limits = scanner.limits ∧
      scanner.position ≤ (scanner.after count).position ∧
      scanner.tokens <+: (scanner.after count).tokens := by
  induction count with
  | zero => exact ⟨underway, rfl, rfl, Nat.le_refl _, List.prefix_refl _⟩
  | succ count ih =>
      obtain ⟨still, source, limits, forward, kept⟩ := ih
      obtain ⟨onward, same, alike, further, more⟩ := still.proceeds.keeps still
      rw [after_succ]
      exact ⟨onward, same.trans source, alike.trans limits, Nat.le_trans forward further,
        kept.trans more⟩

theorem run_of_ended (underway : scanner.Underway)
    (ended : scanner.position = scanner.source.length) :
    scanner.run =
      (.ok (scanner.tokens ++ [Token.finish scanner.source.length]),
        ⟨scanner.source, scanner.limits, scanner.source.length,
          scanner.tokens ++ [Token.finish scanner.source.length]⟩) := by
  have nothing : scanner.ahead = ⟨[], scanner.source.length, none⟩ := by
    have used : scanner.source.toList.length ≤ scanner.position :=
      Nat.le_of_eq (by rw [String.length_toList, ended])
    rw [ahead, List.drop_eq_nil_of_le used, scan, ended]
  have ran := underway.run_of_clear (congrArg Token.Scan.obstacle nothing)
  simp only [nothing, List.append_nil] at ran
  exact ran

theorem answer_of_ended (underway : scanner.Underway)
    (ended : scanner.position = scanner.source.length) (count : Nat) :
    scanner.answer count =
      .ok (scanner.tokens ++ List.replicate (count + 1) (Token.finish scanner.source.length)) := by
  induction count generalizing scanner with
  | zero => exact congrArg Prod.fst (underway.run_of_ended ended)
  | succ count ih =>
      have onward : Underway ⟨scanner.source, scanner.limits, scanner.source.length,
          scanner.tokens ++ [Token.finish scanner.source.length]⟩ :=
        ⟨underway.short, Nat.le_refl _⟩
      rw [answer_succ, underway.run_of_ended ended, ih onward rfl, List.append_assoc]
      rfl

/-- No more runs fail than characters are left, and each run behind them adds an end. -/
theorem runs_dry (underway : scanner.Underway)
    (unended : ∀ token ∈ scanner.tokens, token.kind ≠ .finish) :
    ∃ failures scanned, scanner.position + failures ≤ scanner.source.length ∧
      (∀ token ∈ scanned, token.kind ≠ .finish) ∧
      (∀ count < failures, ∃ place obstacle,
        scanner.answer count = .error (.lexical place obstacle)) ∧
      ∀ more, scanner.answer (failures + more) =
        .ok (scanned ++ List.replicate (more + 1) (Token.finish scanner.source.length)) := by
  -- Each run that fails goes behind an obstacle, so fewer characters are left.
  induction left : scanner.source.length - scanner.position using Nat.strongRecOn
    generalizing scanner with
  | ind left ih =>
      have proceeds := underway.proceeds
      have inside := underway.inside
      generalize answered : scanner.run.1 = outcome at proceeds
      generalize follows : scanner.run.2 = next at proceeds
      cases proceeds with
      | finished found fresh =>
          refine ⟨0, scanner.tokens ++ found, inside,
            List.forall_mem_append.mpr ⟨unended, fresh⟩, fun _ fewer => ?_, fun more => ?_⟩
          · exact absurd fewer (Nat.not_lt_zero _)
          · rw [Nat.zero_add]
            cases more with
            | zero => exact answered
            | succ more =>
                have onward : Underway ⟨scanner.source, scanner.limits, scanner.source.length,
                    scanner.tokens ++ found ++ [Token.finish scanner.source.length]⟩ :=
                  ⟨underway.short, Nat.le_refl _⟩
                rw [answer_succ, follows, onward.answer_of_ended rfl, List.append_assoc]
                rfl
      | @stopped found fresh place obstacle ahead wide reached =>
          have onward : Underway ⟨scanner.source, scanner.limits, place + obstacle.width,
              scanner.tokens ++ found⟩ := ⟨underway.short, reached⟩
          obtain ⟨failures, scanned, bounded, none, fails, finishes⟩ :=
            ih _ (by simp only; omega) onward (List.forall_mem_append.mpr ⟨unended, fresh⟩) rfl
          refine ⟨failures + 1, scanned, ?_, none, fun count fewer => ?_, fun more => ?_⟩
          · simp only at bounded
            omega
          · cases count with
            | zero => exact ⟨place, obstacle, answered⟩
            | succ count =>
                rw [answer_succ, follows]
                exact fails count (Nat.lt_of_succ_lt_succ fewer)
          · rw [Nat.add_right_comm, answer_succ, follows]
            exact finishes more

theorem after_grows (underway : scanner.Underway) {earlier later : Nat}
    (before : earlier ≤ later) :
    (scanner.after earlier).position ≤ (scanner.after later).position ∧
      (scanner.after earlier).tokens <+: (scanner.after later).tokens := by
  obtain ⟨more, rfl⟩ := Nat.exists_eq_add_of_le before
  rw [after_add]
  exact ((underway.after_keeps earlier).1.after_keeps more).2.2.2

theorem tokens_of_answer (underway : scanner.Underway) {count : Nat} {tokens : List Token}
    (answered : scanner.answer count = .ok tokens) :
    (scanner.after (count + 1)).tokens = tokens := by
  have proceeds := (underway.after_keeps count).1.proceeds
  rw [answer] at answered
  rw [after_succ]
  rw [answered] at proceeds
  generalize (scanner.after count).run.2 = next at proceeds
  cases proceeds with
  | finished found unended => rfl

end Underway

/-- A scanner can be run again whatever stopped it. A source that is too long is
refused in every run. In any other each run goes on behind the one before, as a new
scanner would on what is left, and keeps what was found; at most as many runs fail
as the source has characters, and each run behind these adds one end to the tokens
that were found in all. -/
theorem answer_resumed (limits : Limits) (source : String) :
    (∀ count, answers count (start limits source) =
        (List.range count).map (start limits source).answer) ∧
      (limits.maxLength < (source.length : Int) → ∀ count,
        (start limits source).answer count =
            .error (.limit ⟨.length, limits.maxLength, source.length⟩) ∧
          (start limits source).after count = start limits source) ∧
      ((source.length : Int) ≤ limits.maxLength →
        (∀ count,
          ((start limits source).after count).source = source ∧
            ((start limits source).after count).position ≤ source.length ∧
            ((start limits source).after count).Proceeds ((start limits source).answer count)
              ((start limits source).after (count + 1)) ∧
            ((start limits source).after count).Resumes) ∧
        (∀ earlier later, earlier ≤ later →
          ((start limits source).after earlier).position ≤
              ((start limits source).after later).position ∧
            ((start limits source).after earlier).tokens <+:
              ((start limits source).after later).tokens ∧
            ∀ first second, (start limits source).answer earlier = .ok first →
              (start limits source).answer later = .ok second → first <+: second) ∧
        ∃ failures ≤ source.length, ∃ scanned : List Token,
          (∀ token ∈ scanned, token.kind ≠ .finish) ∧
          (∀ count < failures, ∃ place obstacle,
            (start limits source).answer count = .error (.lexical place obstacle)) ∧
          ∀ more, (start limits source).answer (failures + more) =
            .ok (scanned ++ List.replicate (more + 1) (Token.finish source.length))) := by
  refine ⟨answers_eq _, fun long count => ?_, fun short => ?_⟩
  · have exceeds : (start limits source).limits.maxLength <
        ((start limits source).source.length : Int) := long
    have stays := after_of_long exceeds count
    refine ⟨?_, stays⟩
    rw [answer, stays, run_of_long exceeds]
    rfl
  · have underway : (start limits source).Underway := ⟨short, Nat.zero_le _⟩
    refine ⟨fun count => ?_, fun earlier later before => ?_, ?_⟩
    · obtain ⟨still, same, -⟩ := underway.after_keeps count
      have proceeds := still.proceeds
      rw [← after_succ] at proceeds
      have inside := still.inside
      rw [same] at inside
      exact ⟨same, inside, proceeds, still.resumes⟩
    · obtain ⟨forward, kept⟩ := underway.after_grows before
      refine ⟨forward, kept, fun first second answered other => ?_⟩
      rw [← underway.tokens_of_answer answered, ← underway.tokens_of_answer other]
      exact (underway.after_grows (Nat.succ_le_succ before)).2
    · obtain ⟨failures, scanned, bounded, unended, fails, finishes⟩ :=
        underway.runs_dry (by simp [start])
      exact ⟨failures, Nat.le_of_add_left_le bounded, scanned, unended, fails, finishes⟩

theorem answer_resumed_loneAmpersand :
    let scanner := start Limits.standard "1 & xor 2"
    scanner.answer 0 = .error (.lexical 2 (.half '&')) ∧
      scanner.answer 1 = .error (.lexical 4 (.word ['x', 'o', 'r'])) ∧
      (∀ more, scanner.answer (2 + more) =
        .ok ([⟨.number, "1", 0⟩, ⟨.number, "2", 8⟩] ++
          List.replicate (more + 1) (Token.finish 9))) ∧
      ∀ count, (start ⟨3, 64, 512⟩ "n + 1").answer count = .error (.limit ⟨.length, 3, 5⟩) := by
  intro scanner
  have underway : scanner.Underway := ⟨by decide, Nat.zero_le _⟩
  have still (count : Nat) : (scanner.after count).Underway := (underway.after_keeps count).1
  have half : scanner.answer 0 = .error (.lexical 2 (.half '&')) :=
    congrArg Prod.fst ((still 0).run_of_stopped (by decide +kernel))
  have word : scanner.answer 1 = .error (.lexical 4 (.word ['x', 'o', 'r'])) :=
    congrArg Prod.fst ((still 1).run_of_stopped (by decide +kernel))
  have ends : scanner.answer 2 =
      .ok ([⟨.number, "1", 0⟩, ⟨.number, "2", 8⟩] ++ [Token.finish 9]) := by
    rw [answer, (still 2).run_of_clear (by decide +kernel)]
    exact congrArg Except.ok (by decide +kernel)
  obtain ⟨-, -, resumes⟩ := answer_resumed Limits.standard "1 & xor 2"
  obtain ⟨-, -, failures, -, scanned, -, fails, finishes⟩ := resumes (by decide)
  have first : failures = 2 := by
    have once := finishes 0
    rcases failures with _ | _ | _ | more
    · cases half.symm.trans once
    · cases word.symm.trans once
    · rfl
    · obtain ⟨place, obstacle, failed⟩ := fails 2 (by omega)
      cases ends.symm.trans failed
  subst first
  have found := Except.ok.inj ((finishes 0).symm.trans ends)
  rw [← List.append_cancel_right found]
  obtain ⟨-, long, -⟩ := answer_resumed ⟨3, 64, 512⟩ "n + 1"
  exact ⟨half, word, finishes, fun count => (long (by decide) count).1⟩

end PluralRule.Scanner
