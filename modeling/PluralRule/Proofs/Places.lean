import PluralRule.Proofs.Evaluation.Diagnosis
import PluralRule.Proofs.Reading.Blame
import PluralRule.Proofs.Traversal

/-!
Where reports point. A report on a source is faithful when its place is one of the
source and what it says was found there is what stands there: the character or the
word that is no lexeme, the token that does not fit, the digits of the literal, or
the quantity or operator that failed. Main statement: every report on reading a
source and on evaluating its formula is faithful, only limits have no place, and a
report is missing only where it would have to show an integer that is too long.
-/

namespace PluralRule

/-- The longest run of characters of one class that begins at the place of the text. -/
def Text.runAt (belongs : Char → Bool) (text : List Char) (place : Nat) : List Char :=
  (text.drop place).takeWhile belongs

def Mishap.operators : Mishap → List String
  | .divisionByZero => ["/"]
  | .moduloByZero => ["%"]
  | .overflow => ["+", "-", "*", "/"]
  | .general => []

namespace Report

open Text (isBlank isDigit runAt)
open Token (isWordPart isWordStart)

def Quotes (report : Report) (text : List Char) : Prop :=
  '\'' :: (text ++ ['\'']) <:+: report.message.toList

/-- The source has at the place what the report says of it. -/
def Tells (limits : Limits) (source : String) (place : Nat) (report : Report) : Prop :=
  match report.details with
  | .lexical =>
      ∃ first, source.toList[place]? = some first ∧ isBlank first = false ∧
        report.Quotes
          (if isWordStart first then runAt isWordPart source.toList place else [first])
  | .unexpected _ found =>
      (place = source.length ↔ found = some "end of expression") ∧
        (found ≠ some "end of expression" →
          ∃ tokens token, Token.ofSource limits source = .ok tokens ∧ token ∈ tokens ∧
            token.position = place ∧ found = some ("'" ++ token.text ++ "'") ∧
            token.text.toList <+: source.toList.drop place)
  | .literal digits =>
      place < source.length ∧ report.details.found? = some digits ∧ digits ≠ "" ∧
        digits.toList = runAt isDigit source.toList place
  | .evaluation mishap operator _ =>
      place < source.length ∧
        match operator with
        | none => mishap = .overflow ∧ "n".toList <+: source.toList.drop place
        | some symbol =>
            symbol ∈ mishap.operators ∧ symbol.toList <+: source.toList.drop place
  | .limit .. => False
  | .general => False

/-- A breached limit is reported without a place, and everything else with a true one. -/
def Faithful (limits : Limits) (source : String) (report : Report) : Prop :=
  match report.details with
  | .limit .. => report.position = none ∧ report.expression = none
  | _ =>
      report.expression = some source ∧
        ∃ place : Nat, report.position = some (place : Int) ∧ place ≤ source.length ∧
          report.Tells limits source place

end Report

namespace Token

open Text (isDigit runAt)

variable {text : List Char} {place : Nat} {kind : Kind} {word : List Char}

def Obstacle.shown : Obstacle → List Char
  | .half character => [character]
  | .stray character => [character]
  | .word characters => characters

theorem Obstacle.quotes_shown (obstacle : Obstacle) :
    '\'' :: (obstacle.shown ++ ['\'']) <:+: obstacle.wording.toList := by
  cases obstacle with
  | half character =>
      let text := String.ofList [character]
      -- The wording is unfolded by hand; what is left compares lists of characters.
      refine ⟨"Unexpected ".toList, (". Did you mean '" ++ text ++ text ++ "'?").toList, ?_⟩
      change _ = ("Unexpected '" ++ text ++ "'. Did you mean '" ++ text ++ text ++ "'?").toList
      simp [shown, text]
  | stray character =>
      refine ⟨"Unexpected character: ".toList, [], ?_⟩
      change _ = ("Unexpected character: '" ++ String.ofList [character] ++ "'").toList
      simp [shown]
  | word characters =>
      let hint := ". Only 'n' may be used as a variable"
      refine ⟨"Unexpected identifier: ".toList, hint.toList, ?_⟩
      change _ = ("Unexpected identifier: '" ++ String.ofList characters ++ ("'" ++ hint)).toList
      simp [shown]

theorem shown_of_stuck {first : Char} {rest : List Char} {obstacle : Obstacle}
    (stuck : lexeme first rest = .error obstacle) :
    obstacle.shown =
      if isWordStart first then (first :: rest).takeWhile isWordPart else [first] := by
  have recognized := recognition first rest
  rw [stuck] at recognized
  have startless (outside : isWordPart first = false) : ¬ isWordStart first = true := by
    intro start
    rw [wordPart_of_start start] at outside
    cases outside
  cases recognized with
  | half unpaired half => rw [if_neg (startless (not_wordPart_of_half half)), Obstacle.shown]
  | nameless start strange =>
      rw [if_pos start, List.takeWhile_cons_of_pos (wordPart_of_start start), Obstacle.shown]
  | stray unsingle whole outside => rw [if_neg (startless outside), Obstacle.shown]

theorem WrittenAt.isPrefix (here : WrittenAt text place word) : word <+: text.drop place :=
  List.prefix_iff_eq_take.mpr here.symm

theorem Stands.lt_length (stands : Stands text place kind word) : place < text.length :=
  Nat.lt_of_lt_of_le (Nat.lt_add_of_pos_right stands.length_pos) stands.le_length

theorem Stands.eq_runAt (stands : Stands text place .number word) :
    word ≠ [] ∧ word = runAt isDigit text place := by
  obtain ⟨written, here, maximal⟩ := stands
  rcases written with ⟨-, numeral⟩ | impossible
  · have split := List.take_append_drop word.length (text.drop place)
    rw [here, List.drop_drop] at split
    have stop : ∀ next ∈ (text.drop (place + word.length)).head?, isDigit next = false := by
      intro next member
      rw [List.head?_drop] at member
      exact Bool.eq_false_iff.mpr fun more => maximal next member (Or.inl ⟨numeral, more⟩)
    refine ⟨numeral.1, ?_⟩
    rw [runAt, ← split, takeWhile_append_of_stop numeral.2 stop]
  · cases impossible

theorem Kind.Written.eq_of_spellings {only : List Char} (written : kind.Written word)
    (single : kind.spellings = [only]) : word = only := by
  rcases written with ⟨rfl, -⟩ | spelled
  · cases single
  · rw [single] at spelled
    exact List.mem_singleton.mp spelled

theorem described_of_more {token : Token} (more : token.kind ≠ .finish) :
    token.described = "'" ++ token.text ++ "'" := if_neg more

theorem quoted_ne_end (quoted : String) : "'" ++ quoted ++ "'" ≠ "end of expression" := by
  intro same
  have heads := congrArg (fun text : String => text.toList.head?) same
  simp [String.toList_append] at heads

end Token

namespace Reading

theorem not_deeper_literal (limits : Limits) (reading : Reading) (token : Token) :
    deeper limits reading ≠ .fail (.literal token) := by
  unfold deeper
  intro fails
  split at fails <;> cases fails

theorem number_of_takeOperand {limits : Limits} {context : Context} {start : Int}
    {waiting : List Waiting} {token other : Token}
    (fails : takeOperand limits context start waiting token = .fail (.literal other)) :
    token.kind = .number := by
  unfold takeOperand at fails
  split at fails
  · assumption
  · cases fails
  · exact absurd fails (not_deeper_literal _ _ _)
  · exact absurd fails (not_deeper_literal _ _ _)
  · split at fails
    · exact absurd fails (not_deeper_literal _ _ _)
    · cases fails
  · cases fails

theorem number_of_step {limits : Limits} {reading : Reading} {token other : Token}
    (expects : reading.expected = .operand)
    (fails : reading.step limits token = .fail (.literal other)) : token.kind = .number := by
  cases reading with
  | beginning context => exact number_of_takeOperand fails
  | operand context start waiting => exact number_of_takeOperand fails
  | operator context start waiting value =>
      have awaits := context.close_eq value
      have never : context.awaits = .operand := expects
      rw [never] at awaits
      exact awaits.elim

end Reading

theorem Blames.number_of_literal {limits : Limits} {before : List Token} {token : Token}
    {middle : Reading} (blames : Blames limits before token middle (.literal token)) :
    token.kind = .number := by
  have expects : middle.expected = .operand := by
    rcases blames.named with impossible | ⟨-, expects⟩
    · cases impossible
    · exact expects
  have stops := blames.stops limits []
  unfold Reading.run at stops
  split at stops
  · -- Had the token been taken, the run would stop for want of another one.
    cases stops
  · cases stops
  · cases stops
  · next fault fails =>
      cases stops
      exact Reading.number_of_step expects fails

namespace Fault

variable [Writing] {limits : Limits} {source : String} {lexemes : List Token} {token : Token}
  {report : Report}

def Written : Fault → Prop
  | .limit breach => Text.Narrow breach.limit ∧ Text.Narrow breach.actual
  | _ => True

theorem reported_iff (source : String) (fault : Fault) :
    (∃ report, fault.report source = some report) ↔ fault.Written := by
  cases fault with
  | limit breach =>
      simp [Fault.report, Report.ofBreach, Report.limitExceeded, Text.written?, Written,
        Option.bind_eq_some_iff]
  | _ => exact iff_of_true ⟨_, rfl⟩ trivial

theorem faithful_limit {breach : Breach}
    (reported : (limit breach).report source = some report) : report.Faithful limits source := by
  simp only [Fault.report, Report.ofBreach, Report.limitExceeded, Option.bind_eq_bind,
    Option.bind_eq_some_iff, Option.some.injEq] at reported
  obtain ⟨limit, -, actual, -, rfl⟩ := reported
  exact ⟨rfl, rfl⟩

theorem faithful_lexical {place : Nat} {obstacle : Token.Obstacle}
    (stopped : (Token.scan 0 source.toList).obstacle = some (place, obstacle))
    (reported : (lexical place obstacle).report source = some report) :
    report.Faithful limits source := by
  cases reported
  obtain ⟨first, rest, behind, visible, stuck⟩ :=
    Token.scan_obstacle source.toList List.drop_zero stopped
  have here := Token.getElem?_of_drop behind
  obtain ⟨inside, -⟩ := List.getElem?_eq_some_iff.mp here
  rw [String.length_toList] at inside
  have shown := Token.shown_of_stuck stuck
  rw [← behind] at shown
  have quotes := obstacle.quotes_shown
  rw [shown] at quotes
  exact ⟨rfl, place, rfl, Nat.le_of_lt inside, first, here, visible, quotes⟩

theorem faithful_unexpected (expected : Expectation)
    (scanned : Token.ofSource limits source = .ok (lexemes ++ [Token.finish source.length]))
    (decomposes : Token.Decomposes source.toList 0 lexemes)
    (member : token ∈ lexemes ++ [Token.finish source.length])
    (reported : (unexpected expected token).report source = some report) :
    report.Faithful limits source := by
  cases reported
  rcases List.mem_append.mp member with among | last
  · obtain ⟨place, placed, -, stands⟩ := decomposes.lexemes token among
    have inside := stands.lt_length
    rw [String.length_toList] at inside
    have described := Token.described_of_more (decomposes.plain token among).1
    have other : some token.described ≠ some "end of expression" := by
      rw [described]
      exact fun same => Token.quoted_ne_end _ (Option.some.inj same)
    refine ⟨rfl, place, congrArg some placed, Nat.le_of_lt inside, ?_, fun _ => ?_⟩
    · exact iff_of_false (Nat.ne_of_lt inside) other
    · exact ⟨_, token, scanned, member, placed, congrArg some described, stands.here.isPrefix⟩
  · rw [List.mem_singleton.mp last]
    have described : (Token.finish source.length).described = "end of expression" := rfl
    exact ⟨rfl, source.length, rfl, Nat.le_refl _, iff_of_true rfl (congrArg some described),
      fun more => absurd (congrArg some described) more⟩

theorem faithful_literal (decomposes : Token.Decomposes source.toList 0 lexemes)
    (among : token ∈ lexemes) (number : token.kind = .number)
    (reported : (literal token).report source = some report) :
    report.Faithful limits source := by
  cases reported
  obtain ⟨place, placed, -, stands⟩ := decomposes.lexemes token among
  have inside := stands.lt_length
  rw [String.length_toList] at inside
  rw [number] at stands
  obtain ⟨filled, run⟩ := stands.eq_runAt
  refine ⟨rfl, place, congrArg some placed, Nat.le_of_lt inside, inside, rfl, ?_, run⟩
  intro empty
  rw [empty] at filled
  exact filled rfl

end Fault

namespace Formula

variable {limits : Limits} {source : String} {formula part : Formula} {quantity : Int}

/-- The operators whose results can leave the range of words have one spelling each. -/
theorem Computes.spelled {symbol : String} (computes : part.Computes)
    (written : part.symbol? = some symbol) :
    ∃ kind position, part.mark? = some (.operator (some kind) position) ∧
      kind.spellings = [symbol.toList] := by
  cases computes with
  | sign =>
      cases written
      exact ⟨_, _, rfl, rfl⟩
  | @arithmetic position operation left right =>
      cases written
      refine ⟨_, position, rfl, ?_⟩
      cases operation <;> rfl

theorem Defect.mem_operators {failure : Failure} {admits : Number → Prop} {symbol : String}
    (defect : Defect quantity part failure) (known : part.Known admits)
    (written : part.symbol? = some symbol) : symbol ∈ failure.mishap.operators := by
  cases defect with
  | quantity outside => cases written
  | @sign position value operator operand negates given outside =>
      cases operator with
      | negation => exact absurd rfl negates
      | sign =>
          cases written
          have among : UnaryOperator.sign.symbol ∈ Mishap.overflow.operators := by decide
          exact among
      | «unknown» symbol strange => exact absurd known.1 id
  | quotient leftValue zero =>
      cases written
      exact List.mem_singleton.mpr rfl
  | remainder leftValue zero =>
      cases written
      exact List.mem_singleton.mpr rfl
  | @arithmetic position first second value operation left right checks leftValue rightValue exact
      outside =>
      cases written
      have among : operation.symbol ∈ Mishap.overflow.operators := by
        cases operation with
        | remainder => exact absurd rfl checks
        | _ => decide
      exact among
  | operator leftValue rightValue => exact absurd known.1 id
  | foreign => cases written

section

variable [Writing]

theorem faithful_of_refused {fault : Fault} (refused : ofSource limits source = .error fault)
    {report : Report} (reported : fault.report source = some report) :
    report.Faithful limits source := by
  -- A source is refused for its length, by the scan, at a token or for a measure.
  by_cases short : (source.length : Int) ≤ limits.maxLength
  · cases stopped : (Token.scan 0 source.toList).obstacle with
    | some stop =>
        obtain ⟨place, obstacle⟩ := stop
        rw [ofSource, Token.ofSource, Scanner.run_start short, stopped] at refused
        cases refused
        exact Fault.faithful_lexical stopped reported
    | none =>
        have decomposes := Token.decomposes_of_clear stopped
        have scanned := Token.ofSource_of_decomposes short decomposes
        rw [ofSource_of_decomposes short decomposes] at refused
        rcases blames_or_limit decomposes.plain rfl refused with
          ⟨before, token, rest, middle, split, blames⟩ | ⟨breach, rfl⟩
        · have member : token ∈ (Token.scan 0 source.toList).tokens ++
              [Token.finish source.length] := by
            rw [split]
            exact List.mem_append_right _ List.mem_cons_self
          rcases blames.named with rfl | ⟨rfl, -⟩
          · exact Fault.faithful_unexpected _ scanned decomposes member reported
          · have number := blames.number_of_literal
            rcases List.mem_append.mp member with among | last
            · exact Fault.faithful_literal decomposes among number reported
            · rw [List.mem_singleton.mp last] at number
              cases number
        · exact Fault.faithful_limit reported
  · rw [ofSource_of_long (Int.not_le.mp short)] at refused
    cases refused
    exact Fault.faithful_limit reported

theorem faithful_of_reported {report : Report} (read : ofSource limits source = .ok formula)
    (reported : formula.evaluateReported (some source) quantity = .ok (.error report)) :
    report.Faithful limits source := by
  obtain ⟨-, tokens, nesting, decomposes, phrase, -⟩ :=
    (ofSource_eq_ok_iff limits source formula).mp read
  obtain ⟨failure, failed, account⟩ := told_of_reported reported
  rw [evaluateReported_of_error _ failed account] at reported
  have whole := Except.error.inj (Except.ok.inj reported)
  obtain ⟨part, reached, defect⟩ := exists_defect failed
  have known := phrase.known.of_within reached.within
  obtain ⟨message, details, position, told, stands, placed, kinds⟩ :=
    defect.told known (failure.account_ok_iff.mp ⟨_, account⟩)
  rw [account] at told
  cases told
  obtain ⟨token, -, place, here, -, written, marked⟩ :=
    phrase.exists_place decomposes reached.within
  have inside := written.lt_length
  rw [String.length_toList] at inside
  have same : position = (place : Int) := Option.some.inj (placed.symm.trans here)
  -- The text of the token is settled by the kind that the part keeps of it.
  have begins {kind : Token.Kind} {only : List Char} (kept : token.kind = kind)
      (single : kind.spellings = [only]) : only <+: source.toList.drop place := by
    rw [← kept] at single
    rw [← written.written.eq_of_spellings single]
    exact written.here.isPrefix
  rw [← whole]
  rcases kinds with ⟨its, rfl, -, shape⟩ | ⟨symbol, text, computes, spelled, -, shape⟩
  · have kept := congrArg Mark.kind (marked _ rfl)
    rw [shape]
    exact ⟨rfl, place, by rw [stands, same], Nat.le_of_lt inside, inside, rfl,
      begins (Option.some.inj kept) rfl⟩
  · obtain ⟨kind, its, own, single⟩ := computes.spelled spelled
    have kept := congrArg Mark.kind (marked _ own)
    rw [shape]
    exact ⟨rfl, place, by rw [stands, same], Nat.le_of_lt inside, inside,
      defect.mem_operators known spelled, begins (Option.some.inj kept) single⟩

/-- Every report on a source points at the source and says what stands there, be
it a report on reading the source or on evaluating its formula. There is one on every
fault whose numbers are written, and on every failure at a quantity that is. -/
theorem report_faithful (limits : Limits) (source : String) :
    (∀ fault, ofSource limits source = .error fault →
        ((∃ report, fault.report source = some report) ↔ fault.Written) ∧
          ∀ report, fault.report source = some report → report.Faithful limits source) ∧
      ∀ formula quantity, ofSource limits source = .ok formula →
        (Text.Narrow quantity →
          ∀ reason, formula.evaluateReported (some source) quantity ≠ .error reason) ∧
          ∀ report, formula.evaluateReported (some source) quantity = .ok (.error report) →
            report.Faithful limits source := by
  refine ⟨fun fault refused => ⟨fault.reported_iff source, fun report =>
    faithful_of_refused refused⟩, fun formula quantity read => ⟨fun short reason untold => ?_,
    fun report => faithful_of_reported read⟩⟩
  have known : formula.Known Writable := known_of_ofSource read
  rcases known.value_or_reported (some source) short with ⟨value, returned⟩ | ⟨report, reported⟩
  · cases untold.symm.trans returned
  · cases untold.symm.trans reported

end

def flatRemainder : Formula :=
  .binary 1 (.known (.numeric .remainder)) (.literal 0 (.int 1)) (.quantity 2)

theorem ofSource_flatRemainder : ofSource Limits.standard "1%n" = .ok flatRemainder := by
  have scan : Token.scan 0 "1%n".toList =
      ⟨[⟨.number, "1", 0⟩, ⟨.percent, "%", 1⟩, ⟨.quantity, "n", 2⟩], 3, none⟩ := by
    decide +kernel
  rw [ofSource, Token.ofSource, Scanner.run_start (by decide), scan]
  exact (measured_eq_ok_iff _ _ _).mpr ⟨rfl, by decide, by decide⟩

attribute [local instance] Writing.standard

theorem report_faithful_strangeWord :
    ofSource Limits.standard "n mod 10" = .error (.lexical 2 (.word "mod".toList)) ∧
      (∃ report, (Fault.lexical 2 (.word "mod".toList)).report "n mod 10" = some report ∧
        report.Quotes "mod".toList) ∧
      ofSource Limits.standard "1%n" = .ok flatRemainder ∧
      ∃ report, flatRemainder.evaluateReported (some "1%n") 0 = .ok (.error report) ∧
        report.position = some 1 ∧ report.Faithful Limits.standard "1%n" := by
  have stuck : Token.scan 0 "n mod 10".toList =
      ⟨[⟨.quantity, "n", 0⟩], 5, some (2, .word "mod".toList)⟩ := by
    decide +kernel
  have refused :
      ofSource Limits.standard "n mod 10" = .error (.lexical 2 (.word "mod".toList)) := by
    rw [ofSource, Token.ofSource, Scanner.run_start (by decide), stuck]
    rfl
  have faithful := ((report_faithful Limits.standard "n mod 10").1 _ refused).2 _ rfl
  obtain ⟨-, place, placed, -, first, here, -, quotes⟩ := faithful
  obtain rfl : place = 2 := Int.ofNat.inj (Option.some.inj placed).symm
  obtain rfl : 'm' = first := Option.some.inj here
  exact ⟨refused, ⟨_, rfl, quotes⟩, ofSource_flatRemainder, _, rfl, rfl,
    ((report_faithful Limits.standard "1%n").2 _ 0 ofSource_flatRemainder).2 _ rfl⟩

theorem flatRemainder_unplaced :
    ofSource Limits.standard "1%n" = .ok flatRemainder ∧
      flatRemainder.valueAt (some "1%n") (.bool false) = .error (.quantity (.bool false)) ∧
      flatRemainder.valueAt (some "1%n") (.int Text.leastWide) = .error (.unwritable .wide) := by
  refine ⟨ofSource_flatRemainder, rfl, ?_⟩
  have failed : flatRemainder.evaluate Text.leastWide = .error (.quantity 2 Text.leastWide) := by
    simp only [flatRemainder, evaluate, if_neg Word.not_inRange_leastWide]
    rfl
  exact valueAt_of_wide _ failed Text.not_narrow_leastWide

end Formula

end PluralRule
