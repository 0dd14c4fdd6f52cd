import PluralRule.Proofs.Scanning.Lexeme
import PluralRule.Token.Scanner

/-!
Texts taken apart. A decomposition names the lexemes of a text by their places
and leaves nothing but blanks between them; how the text is scanned does not
enter into it. Main statement: a source has at most one decomposition, scanning
finds it where it exists, and otherwise stops at the first place where neither a
blank nor a lexeme stands, with the tokens of the part in front of that place.
-/

namespace PluralRule.Token

open Text (isBlank)

def stop (token : Token) : Int := token.position + (token.text.length : Int)

def Covers (token : Token) (place : Nat) : Prop :=
  token.position ≤ (place : Int) ∧ (place : Int) < token.stop

/-- The tokens are the lexemes of the text from a place on, one behind the
other, and what they do not take up is blank. -/
structure Decomposes (text : List Char) (start : Nat) (tokens : List Token) : Prop where
  ordered : tokens.Pairwise fun earlier later =>
    earlier.position < later.position ∧ earlier.stop ≤ later.position
  lexemes : ∀ token ∈ tokens, ∃ place : Nat, token.position = place ∧ start ≤ place ∧
    Stands text place token.kind token.text.toList
  blank : ∀ place character, start ≤ place → text[place]? = some character →
    (∀ token ∈ tokens, ¬ token.Covers place) → isBlank character = true

namespace Decomposes

variable {text : List Char} {start : Nat} {tokens : List Token} {character : Char}

theorem nil (past : text.length ≤ start) : Decomposes text start [] := by
  refine ⟨.nil, by simp, fun place character behind here _ => ?_⟩
  rw [List.getElem?_eq_none (by omega)] at here
  cases here

theorem eq_nil (decomposes : Decomposes text start tokens) (past : text.length ≤ start) :
    tokens = [] := by
  cases tokens with
  | nil => rfl
  | cons token tail =>
      rcases decomposes.lexemes token List.mem_cons_self with ⟨place, -, behind, stands⟩
      have positive := stands.length_pos
      have inside := stands.le_length
      omega

theorem skip (here : text[start]? = some character) (blank : isBlank character = true)
    (rest : Decomposes text (start + 1) tokens) : Decomposes text start tokens := by
  refine ⟨rest.ordered, fun token member => ?_, fun place other behind there free => ?_⟩
  · rcases rest.lexemes token member with ⟨place, placed, behind, stands⟩
    exact ⟨place, placed, by omega, stands⟩
  · rcases Nat.lt_or_eq_of_le behind with later | rfl
    · exact rest.blank place other later there free
    · rw [here] at there
      cases there
      exact blank

theorem unskip (decomposes : Decomposes text start tokens) (here : text[start]? = some character)
    (blank : isBlank character = true) : Decomposes text (start + 1) tokens := by
  refine ⟨decomposes.ordered, fun token member => ?_, fun place other behind there free => ?_⟩
  · rcases decomposes.lexemes token member with ⟨place, placed, behind, stands⟩
    have apart : place ≠ start := by
      rintro rfl
      rw [stands.visible here] at blank
      cases blank
    exact ⟨place, placed, by omega, stands⟩
  · exact decomposes.blank place other (by omega) there free

theorem cons {kind : Kind} {word : List Char} (stands : Stands text start kind word)
    (rest : Decomposes text (start + word.length) tokens) :
    Decomposes text start (⟨kind, String.ofList word, start⟩ :: tokens) := by
  have positive := stands.length_pos
  refine ⟨?_, ?_, fun place other behind there free => ?_⟩
  · refine List.pairwise_cons.mpr ⟨fun token member => ?_, rest.ordered⟩
    rcases rest.lexemes token member with ⟨place, placed, behind, -⟩
    simp only [placed, stop, String.length_ofList]
    omega
  · refine List.forall_mem_cons.mpr ⟨⟨start, rfl, Nat.le_refl _, ?_⟩, fun token member => ?_⟩
    · rw [String.toList_ofList]
      exact stands
    · rcases rest.lexemes token member with ⟨place, placed, behind, stands⟩
      exact ⟨place, placed, by omega, stands⟩
  · have outside := free _ List.mem_cons_self
    simp only [Covers, stop, String.length_ofList] at outside
    exact rest.blank place other (by omega) there
      fun token member => free token (List.mem_cons_of_mem _ member)

theorem of_cons {first : Token} (decomposes : Decomposes text start (first :: tokens)) :
    ∃ place : Nat, first.position = place ∧ start ≤ place ∧
      Stands text place first.kind first.text.toList ∧
      Decomposes text (place + first.text.toList.length) tokens := by
  have order := List.pairwise_cons.mp decomposes.ordered
  rcases decomposes.lexemes first List.mem_cons_self with ⟨place, placed, behind, stands⟩
  refine ⟨place, placed, behind, stands, order.2, fun other tailed => ?_,
    fun its other far there free => ?_⟩
  · rcases decomposes.lexemes other (List.mem_cons_of_mem _ tailed) with
      ⟨its, itsPlaced, -, itsStands⟩
    have ahead := (order.1 other tailed).2
    simp only [stop, placed, itsPlaced] at ahead
    exact ⟨its, itsPlaced, by rw [String.length_toList]; omega, itsStands⟩
  · rw [String.length_toList] at far
    refine decomposes.blank its other (by omega) there (List.forall_mem_cons.mpr ⟨?_, free⟩)
    simp only [Covers, stop, placed]
    omega

theorem uncons (decomposes : Decomposes text start tokens) (here : text[start]? = some character)
    (visible : isBlank character = false) :
    ∃ kind word rest, tokens = ⟨kind, String.ofList word, start⟩ :: rest ∧
      Stands text start kind word ∧ Decomposes text (start + word.length) rest := by
  have taken : ∃ token ∈ tokens, token.Covers start := by
    apply Classical.byContradiction
    intro free
    have uncovered : ∀ token ∈ tokens, ¬ token.Covers start :=
      fun token member covers => free ⟨token, member, covers⟩
    rw [decomposes.blank start character (Nat.le_refl _) here uncovered] at visible
    cases visible
  rcases taken with ⟨token, member, below, -⟩
  cases tokens with
  | nil => cases member
  | cons first rest =>
      rcases decomposes.of_cons with ⟨place, placed, behind, stands, later⟩
      -- A later token could not reach back to the start.
      have begins : place = start := by
        rcases List.mem_cons.mp member with rfl | tailed
        · omega
        · have ahead := ((List.pairwise_cons.mp decomposes.ordered).1 token tailed).1
          omega
      subst begins
      refine ⟨first.kind, first.text.toList, rest, ?_, stands, later⟩
      rw [String.ofList_toList, ← placed]

theorem length_le (decomposes : Decomposes text start tokens) (inside : start ≤ text.length) :
    start + tokens.length ≤ text.length := by
  induction tokens generalizing start with
  | nil => exact inside
  | cons first rest ih =>
      rcases decomposes.of_cons with ⟨place, -, behind, stands, later⟩
      have positive := stands.length_pos
      have counted := ih later stands.le_length
      simp only [List.length_cons]
      omega

end Decomposes

def Scan.reach (scan : Scan) : Nat :=
  match scan.obstacle with
  | some (place, _) => place
  | none => scan.stop

variable {text : List Char} {start : Nat}

theorem drop_behind {first : Char} {rest characters : List Char} {width : Nat}
    (behind : text.drop start = first :: rest) (positive : 0 < width)
    (rests : characters = rest.drop (width - 1)) : text.drop (start + width) = characters := by
  rw [← List.drop_drop, behind, rests]
  cases width with
  | zero => cases positive
  | succ width => rfl

theorem getElem?_of_drop {first : Char} {rest : List Char}
    (behind : text.drop start = first :: rest) : text[start]? = some first := by
  have same : (text.drop start)[0]? = text[start]? := List.getElem?_drop
  rw [behind] at same
  exact same.symm

/-- A scan takes apart what is in front of its obstacle. -/
theorem scan_decomposes (characters : List Char) (behind : text.drop start = characters) :
    start ≤ (scan start characters).reach ∧
      Decomposes (text.take (scan start characters).reach) start
        (scan start characters).tokens := by
  fun_induction scan start characters with
  | case1 start => exact ⟨Nat.le_refl _, .nil (List.length_take_le _ _)⟩
  | case2 start first rest blank ih =>
      rcases ih (drop_behind behind Nat.one_pos rfl) with ⟨ahead, decomposes⟩
      refine ⟨by omega, .skip ?_ blank decomposes⟩
      rw [List.getElem?_take_of_lt (by omega)]
      exact getElem?_of_drop behind
  | case3 start first rest blank found read width tail ih =>
      have stands := (stands_iff behind).mpr read
      rcases ih (drop_behind behind stands.length_pos rfl) with ⟨ahead, decomposes⟩
      exact ⟨Nat.le_trans (Nat.le_add_right _ _) ahead, .cons (stands.take ahead) decomposes⟩
  | case4 start first rest blank obstacle stuck =>
      exact ⟨Nat.le_refl _, .nil (List.length_take_le _ _)⟩

theorem decomposes_of_clear (clear : (scan 0 text).obstacle = none) :
    Decomposes text 0 (scan 0 text).tokens := by
  have taken := (scan_decomposes text List.drop_zero).2
  have stopped := scan_stop_of_clear 0 text clear
  rw [Nat.zero_add] at stopped
  rwa [Scan.reach, clear, stopped, List.take_length] at taken

theorem decomposes_of_stopped {place : Nat} {obstacle : Obstacle}
    (stopped : (scan 0 text).obstacle = some (place, obstacle)) :
    Decomposes (text.take place) 0 (scan 0 text).tokens := by
  have taken := (scan_decomposes text List.drop_zero).2
  rwa [Scan.reach, stopped] at taken

theorem scan_obstacle (characters : List Char) (behind : text.drop start = characters)
    {place : Nat} {obstacle : Obstacle}
    (stopped : (scan start characters).obstacle = some (place, obstacle)) :
    ∃ first rest, text.drop place = first :: rest ∧ isBlank first = false ∧
      lexeme first rest = .error obstacle := by
  fun_induction scan start characters with
  | case1 start => cases stopped
  | case2 start first rest blank ih => exact ih (drop_behind behind Nat.one_pos rfl) stopped
  | case3 start first rest blank found read width tail ih =>
      have stands := (stands_iff behind).mpr read
      exact ih (drop_behind behind stands.length_pos rfl) stopped
  | case4 start first rest blank obstacle stuck =>
      cases stopped
      exact ⟨first, rest, behind, by simpa using blank, stuck⟩

theorem scan_of_decomposes (characters : List Char) (behind : text.drop start = characters)
    (inside : start ≤ text.length) {tokens : List Token}
    (decomposes : Decomposes text start tokens) :
    scan start characters = ⟨tokens, text.length, none⟩ := by
  fun_induction scan start characters generalizing tokens with
  | case1 start =>
      have past := List.drop_eq_nil_iff.mp behind
      rw [decomposes.eq_nil past, Nat.le_antisymm inside past]
  | case2 start first rest blank ih =>
      -- The blank begins no token, so the tokens are those of what is behind it.
      have here := getElem?_of_drop behind
      rcases List.getElem?_eq_some_iff.mp here with ⟨within, -⟩
      exact ih (drop_behind behind Nat.one_pos rfl) within (decomposes.unskip here blank)
  | case3 start first rest blank found read width tail ih =>
      have here := getElem?_of_drop behind
      obtain ⟨kind, word, others, rfl, stands, later⟩ :=
        decomposes.uncons here (by simpa using blank)
      have same := (stands_iff behind).mp stands
      rw [read] at same
      cases same
      have ended := ih (drop_behind behind stands.length_pos rfl) stands.le_length later
      simp only [tail, ended]
      rfl
  | case4 start first rest blank obstacle stuck =>
      obtain ⟨kind, word, others, rfl, stands, -⟩ :=
        decomposes.uncons (getElem?_of_drop behind) (by simpa using blank)
      have read := (stands_iff behind).mp stands
      rw [stuck] at read
      cases read

theorem Decomposes.unique {first second : List Token} (one : Decomposes text 0 first)
    (other : Decomposes text 0 second) : first = second := by
  have left := scan_of_decomposes text List.drop_zero (Nat.zero_le _) one
  have right := scan_of_decomposes text List.drop_zero (Nat.zero_le _) other
  rw [left] at right
  exact congrArg Scan.tokens right

end PluralRule.Token

namespace PluralRule

open Token (Decomposes Scan scan)

variable {limits : Limits} {source : String}

theorem Scanner.run_start (short : (source.length : Int) ≤ limits.maxLength) :
    (Scanner.start limits source).run =
      match (scan 0 source.toList).obstacle with
      | some (place, obstacle) =>
          (.error (.lexical place obstacle),
            ⟨source, limits, (scan 0 source.toList).stop, (scan 0 source.toList).tokens⟩)
      | none =>
          let finished := (scan 0 source.toList).tokens ++
            [Token.finish (scan 0 source.toList).stop]
          (.ok finished, ⟨source, limits, (scan 0 source.toList).stop, finished⟩) := by
  have checked := (limits.check_eq_ok_iff .length source.length).mpr short
  simp only [Scanner.run, Scanner.start, checked]
  rfl

theorem Token.ofSource_of_long (long : limits.maxLength < (source.length : Int)) :
    Token.ofSource limits source =
      .error (.limit ⟨.length, limits.maxLength, source.length⟩) := by
  have exceeded : limits.check .length source.length =
      .error ⟨.length, limits.maxLength, source.length⟩ := if_pos long
  rw [Token.ofSource, Scanner.run, Scanner.start, exceeded]

theorem Token.ofSource_of_decomposes (short : (source.length : Int) ≤ limits.maxLength)
    {lexemes : List Token} (decomposes : Decomposes source.toList 0 lexemes) :
    Token.ofSource limits source = .ok (lexemes ++ [Token.finish source.length]) := by
  have scanned := Token.scan_of_decomposes source.toList List.drop_zero (Nat.zero_le _) decomposes
  rw [Token.ofSource, Scanner.run_start short, scanned, String.length_toList]

theorem Token.ofSource_take (short : (source.length : Int) ≤ limits.maxLength) {place : Nat}
    (inside : place ≤ source.length) {lexemes : List Token}
    (decomposes : Decomposes (source.toList.take place) 0 lexemes) :
    Token.ofSource limits (String.ofList (source.toList.take place)) =
      .ok (lexemes ++ [Token.finish place]) := by
  have length : (String.ofList (source.toList.take place)).length = place := by
    rw [String.length_ofList, List.length_take, String.length_toList, Nat.min_eq_left inside]
  have front : (String.ofList (source.toList.take place)).toList = source.toList.take place :=
    String.toList_ofList
  rw [← front] at decomposes
  rw [Token.ofSource_of_decomposes (by rw [length]; omega) decomposes, length]

theorem Token.ofSource_eq_ok_iff (short : (source.length : Int) ≤ limits.maxLength)
    (tokens : List Token) :
    Token.ofSource limits source = .ok tokens ↔
      ∃ lexemes, tokens = lexemes ++ [Token.finish source.length] ∧
        Decomposes source.toList 0 lexemes := by
  constructor
  · intro read
    cases clear : (scan 0 source.toList).obstacle with
    | some stop =>
        rw [Token.ofSource, Scanner.run_start short, clear] at read
        cases read
    | none =>
        have decomposes := Token.decomposes_of_clear clear
        rw [Token.ofSource_of_decomposes short decomposes] at read
        exact ⟨_, (Except.ok.inj read).symm, decomposes⟩
  · rintro ⟨lexemes, rfl, decomposes⟩
    exact Token.ofSource_of_decomposes short decomposes

/-- Scanning is taking apart into lexemes, each as long as it can be. A text that
cannot be taken apart is scanned up to the first place where neither a blank nor
a lexeme stands. -/
theorem Token.ofSource_decomposes (limits : Limits) (source : String)
    (short : (source.length : Int) ≤ limits.maxLength) :
    (∀ tokens, Token.ofSource limits source = .ok tokens ↔
        ∃ lexemes, tokens = lexemes ++ [Token.finish source.length] ∧
          Decomposes source.toList 0 lexemes) ∧
      (∀ first second, Decomposes source.toList 0 first → Decomposes source.toList 0 second →
        first = second) ∧
      ((¬ ∃ lexemes, Decomposes source.toList 0 lexemes) →
        ∃ (place : Nat) (obstacle : Obstacle) (scanner : Scanner) (character : Char),
          (Scanner.start limits source).run = (.error (.lexical place obstacle), scanner) ∧
          Token.ofSource limits source = .error (.lexical place obstacle) ∧
          (∀ [Writing], ∃ report, (Fault.lexical place obstacle).report source = some report ∧
            report.kind = "lexical-error" ∧ report.position = some (place : Int)) ∧
          Token.ofSource limits (String.ofList (source.toList.take place)) =
            .ok (scanner.tokens ++ [Token.finish place]) ∧
          source.toList[place]? = some character ∧ Text.isBlank character = false ∧
          (∀ kind word, ¬ Token.Stands source.toList place kind word) ∧
          Token.Obstructs source.toList place obstacle) := by
  refine ⟨Token.ofSource_eq_ok_iff short, fun _ _ => Decomposes.unique, fun whole => ?_⟩
  cases stopped : (scan 0 source.toList).obstacle with
  | none => exact absurd ⟨_, Token.decomposes_of_clear stopped⟩ whole
  | some stop =>
      obtain ⟨place, obstacle⟩ := stop
      have run := Scanner.run_start short
      rw [stopped] at run
      obtain ⟨first, rest, behind, visible, stuck⟩ :=
        Token.scan_obstacle source.toList List.drop_zero stopped
      have here := Token.getElem?_of_drop behind
      rcases List.getElem?_eq_some_iff.mp here with ⟨inside, -⟩
      rw [String.length_toList] at inside
      refine ⟨place, obstacle, _, first, run, by rw [Token.ofSource, run], ⟨_, rfl, rfl, rfl⟩,
        ?_, here,
        visible, ?_, Token.obstructs_of_stuck behind stuck⟩
      · exact Token.ofSource_take short (Nat.le_of_lt inside) (Token.decomposes_of_stopped stopped)
      · intro kind word stands
        have read := (Token.stands_iff behind).mp stands
        rw [stuck] at read
        cases read

theorem Token.ofSource_decomposes_loneEquals :
    (("1n !==2".length : Int) ≤ Limits.standard.maxLength) ∧
      (¬ ∃ lexemes, Decomposes "1n !==2".toList 0 lexemes) ∧
      (∃ scanner, (Scanner.start Limits.standard "1n !==2").run =
          (.error (.lexical 5 (.half '=')), scanner) ∧
        Token.ofSource Limits.standard "1n !=" = .ok (scanner.tokens ++ [Token.finish 5])) ∧
      Token.Obstructs "1n !==2".toList 5 (.half '=') := by
  have short : ("1n !==2".length : Int) ≤ Limits.standard.maxLength := by decide
  have stopped : (scan 0 "1n !==2".toList).obstacle = some (5, .half '=') := by decide +kernel
  have stuck : Token.ofSource Limits.standard "1n !==2" = .error (.lexical 5 (.half '=')) := by
    rw [Token.ofSource, Scanner.run_start short, stopped]
    rfl
  obtain ⟨scans, -, stops⟩ := Token.ofSource_decomposes Limits.standard "1n !==2" short
  have whole : ¬ ∃ lexemes, Decomposes "1n !==2".toList 0 lexemes := by
    rintro ⟨lexemes, decomposes⟩
    have read := (scans _).mpr ⟨lexemes, rfl, decomposes⟩
    rw [stuck] at read
    cases read
  obtain ⟨place, obstacle, scanner, character, run, found, -, front, -, -, -, obstructs⟩ :=
    stops whole
  have same := Except.error.inj (stuck.symm.trans found)
  obtain ⟨placed, rfl⟩ := Fault.lexical.inj same
  obtain rfl : place = 5 := by omega
  exact ⟨short, whole, ⟨scanner, run, front⟩, obstructs⟩

end PluralRule
