import PluralRule.Proofs.Blank
import PluralRule.Proofs.Composition
import PluralRule.Proofs.Equality
import PluralRule.Proofs.Reading.Agreement
import PluralRule.Proofs.Scanning.Place
import PluralRule.Proofs.Session

/-!
Blanks around a formula. Selectors are compiled from the trimmed text, and what is
trimmed is just what a scan passes over. Main statements: a source is read like
its trimmed text with all places moved, so that compiling agrees with reading the
source as it stands, and a formula that has been compiled is trimmed and compiles
to the same selector again.
-/

namespace PluralRule

open Token (mapPosition scan)

namespace Text

def leadingBlanks (text : String) : Nat := (text.toList.takeWhile isBlank).length

/-- Where a place of the trimmed text lies in the text itself. The end of the one
is the end of the other, whatever blanks there are behind it. -/
def untrimmedPlace (text : String) (place : Int) : Int :=
  if place < (trimmed text).length then place + leadingBlanks text else text.length

theorem length_trimmed (source : String) : (trimmed source).length ≤ source.length := by
  obtain ⟨rear, -, split⟩ := trim_split source.toList
  have whole := congrArg List.length split
  rw [← String.length_toList, ← String.length_toList, trimmed_toList]
  simp only [List.length_append] at whole
  omega

theorem untrimmedPlace_of_lt {text : String} {place : Nat}
    (inside : place < (trimmed text).length) :
    untrimmedPlace text place = place + leadingBlanks text :=
  if_pos (by omega)

theorem untrimmedPlace_length (text : String) :
    untrimmedPlace text (trimmed text).length = text.length :=
  if_neg (Int.lt_irrefl _)

end Text

namespace Token

open Text (trim trimmed leadingBlanks untrimmedPlace)

variable {limits : Limits} {source : String}

/-- The scan of a text is the scan of the trimmed text behind the blanks in front. -/
theorem scan_trim (source : String) :
    (scan 0 source.toList).tokens =
        (scan 0 (trimmed source).toList).tokens.map
          (mapPosition (· + (leadingBlanks source : Int))) ∧
      (scan 0 source.toList).obstacle =
        (scan 0 (trimmed source).toList).obstacle.map fun stopped =>
          (stopped.1 + leadingBlanks source, stopped.2) := by
  obtain ⟨rear, behind, split⟩ := Text.trim_split source.toList
  have before : ∀ character ∈ source.toList.takeWhile Text.isBlank,
      Text.isBlank character = true := fun character => List.mem_takeWhile_imp
  have passed := scan_blank_append before 0 (trim source.toList ++ rear)
  rw [← split, Nat.zero_add] at passed
  obtain ⟨tokens, obstacle⟩ := scan_append_blank behind
    (source.toList.takeWhile Text.isBlank).length (trim source.toList)
  rw [passed, tokens, obstacle, scan_eq_shift, Text.trimmed_toList]
  exact ⟨rfl, rfl⟩

theorem map_mapPosition_congr {tokens : List Token} {place move : Int → Int}
    (alike : ∀ token ∈ tokens, place token.position = move token.position) :
    tokens.map (mapPosition place) = tokens.map (mapPosition move) := by
  apply List.map_congr_left
  intro token member
  simp only [mapPosition, alike token member]

theorem Decomposes.position_lt {text : List Char} {tokens : List Token}
    (decomposes : Decomposes text 0 tokens) {token : Token} (member : token ∈ tokens) :
    ∃ place : Nat, token.position = place ∧ place < text.length := by
  obtain ⟨place, placed, -, stands⟩ := decomposes.lexemes token member
  have positive := stands.length_pos
  have inside := stands.le_length
  exact ⟨place, placed, by omega⟩

theorem Decomposes.untrimmedPlace_eq {tokens : List Token}
    (decomposes : Decomposes (trimmed source).toList 0 tokens) :
    ∀ token ∈ tokens, untrimmedPlace source token.position =
      token.position + (leadingBlanks source : Int) := by
  intro token member
  obtain ⟨place, placed, inside⟩ := decomposes.position_lt member
  rw [String.length_toList] at inside
  rw [placed, Text.untrimmedPlace_of_lt inside]

/-- The tokens of a source are those of its trimmed text at their places in the source. -/
theorem ofSource_untrimmed (short : (source.length : Int) ≤ limits.maxLength) :
    Token.ofSource limits source =
      ((Token.ofSource limits (trimmed source)).map
        (·.map (mapPosition (untrimmedPlace source)))).mapError
          (Fault.mapPosition (untrimmedPlace source)) := by
  have less := Text.length_trimmed source
  have shorter : ((trimmed source).length : Int) ≤ limits.maxLength := by omega
  obtain ⟨tokens, obstacle⟩ := scan_trim source
  cases met : (scan 0 (trimmed source).toList).obstacle with
  | none =>
      have clear : (scan 0 source.toList).obstacle = none := by
        rw [obstacle, met]
        rfl
      have whole := decomposes_of_clear clear
      have lexemes := decomposes_of_clear met
      -- Inside of the trimmed text a place moves by the blanks in front; its end moves to the end.
      have moved : (scan 0 (trimmed source).toList).tokens.map
            (mapPosition (untrimmedPlace source)) =
          (scan 0 (trimmed source).toList).tokens.map
            (mapPosition (· + (leadingBlanks source : Int))) :=
        map_mapPosition_congr lexemes.untrimmedPlace_eq
      have last : mapPosition (untrimmedPlace source) (Token.finish (trimmed source).length) =
          Token.finish source.length :=
        congrArg Token.finish (Text.untrimmedPlace_length source)
      rw [tokens, ← moved] at whole
      rw [Token.ofSource_of_decomposes short whole, Token.ofSource_of_decomposes shorter lexemes]
      exact congrArg Except.ok (by simp only [List.map_append, List.map_singleton, last])
  | some stopped =>
      obtain ⟨place, found⟩ := stopped
      obtain ⟨first, rest, behind, -⟩ := scan_obstacle _ List.drop_zero met
      obtain ⟨inside, -⟩ := List.getElem?_eq_some_iff.mp (getElem?_of_drop behind)
      rw [String.length_toList] at inside
      rw [Token.ofSource, Token.ofSource, Scanner.run_start short, Scanner.run_start shorter,
        obstacle, met]
      exact congrArg (fun position => Except.error (Fault.lexical position found))
        (Text.untrimmedPlace_of_lt inside).symm

end Token

theorem Fault.withoutPlace_mapPosition [Writing] (fault : Fault) (move : Int → Int)
    (source other : String) :
    ((fault.mapPosition move).report other).map Report.withoutPlace =
      (fault.report source).map Report.withoutPlace := by
  cases fault <;> rfl

namespace Formula

open Text (trimmed leadingBlanks untrimmedPlace)

variable {limits : Limits} {source : String} {tokens : List Token} {finish : Token}

/-- Tokens at other places are read as the same formula, at the places of its
tokens, or fail alike. -/
theorem ofTokens_mapPosition (plain : ∀ token ∈ tokens, token.Plain)
    (ends : finish.kind = .finish) {move place : Int → Int}
    (placed : ∀ token ∈ tokens, place token.position = move token.position) :
    ofTokens limits ((tokens ++ [finish]).map (Token.mapPosition place)) =
      ((ofTokens limits (tokens ++ [finish])).map (mapPosition move)).mapError
        (Fault.mapPosition place) := by
  cases read : ofTokens limits (tokens ++ [finish]) with
  | ok formula =>
      obtain ⟨nesting, phrase, admitted, wide, deep⟩ :=
        (ofTokens_eq_ok_iff plain ends formula).mp read
      have still : ∀ token ∈ tokens.map (Token.mapPosition move), token.Plain := by
        intro moved member
        obtain ⟨token, present, rfl⟩ := List.mem_map.mp member
        exact plain token present
      have finishes : (finish.mapPosition place).kind = .finish := ends
      rw [List.map_append, Token.map_mapPosition_congr placed]
      exact (ofTokens_eq_ok_iff still finishes _).mpr ⟨nesting, phrase.mapPosition move, admitted,
        by rwa [Same.size_eq (formula.essence_mapPosition move)],
        by rwa [Same.depth_eq (formula.essence_mapPosition move)]⟩
  | error fault =>
      have alike : List.Forall₂ Token.Interchangeable (tokens ++ [finish])
          ((tokens ++ [finish]).map (Token.mapPosition place)) :=
        List.forall₂_map_right_iff.mpr (List.forall₂_same.mpr fun token _ => ⟨rfl, fun _ => rfl⟩)
      have agree := ofTokens_agrees limits ⟨finish, by simp, ends⟩ alike
      rw [read] at agree
      generalize ofTokens limits ((tokens ++ [finish]).map _) = moved at agree ⊢
      -- The tokens that are blamed have one index, so the one is the other moved.
      cases agree with
      | unexpected expected index here there =>
          rw [List.getElem?_map, here] at there
          cases there
          rfl
      | literal index here there =>
          rw [List.getElem?_map, here] at there
          cases there
          rfl
      | limit breach measured => rfl

theorem ofSource_untrimmed (short : (source.length : Int) ≤ limits.maxLength) :
    ofSource limits source =
      ((ofSource limits (trimmed source)).map
        (mapPosition (· + (leadingBlanks source : Int)))).mapError
          (Fault.mapPosition (untrimmedPlace source)) := by
  have less := Text.length_trimmed source
  have shorter : ((trimmed source).length : Int) ≤ limits.maxLength := by omega
  have scanned := Token.ofSource_untrimmed short
  cases read : Token.ofSource limits (trimmed source) with
  | error fault =>
      rw [read] at scanned
      rw [ofSource, ofSource, scanned, read]
      rfl
  | ok tokens =>
      obtain ⟨lexemes, rfl, decomposes⟩ := (Token.ofSource_eq_ok_iff shorter tokens).mp read
      rw [read] at scanned
      rw [ofSource, ofSource, scanned, read]
      exact ofTokens_mapPosition decomposes.plain rfl decomposes.untrimmedPlace_eq

theorem mapPosition_id (formula : Formula) : formula.mapPosition id = formula := by
  induction formula with
  | literal position number => rfl
  | quantity position => rfl
  | unary position operator operand ih => simp only [mapPosition, ih, id_eq]
  | binary position operator left right leftIh rightIh =>
      simp only [mapPosition, leftIh, rightIh, id_eq]
  | choice position condition consequent alternate firstIh secondIh thirdIh =>
      simp only [mapPosition, firstIh, secondIh, thirdIh, id_eq]
  | foreign leaf => rfl

theorem mapPosition_add_sub (formula : Formula) (distance : Int) :
    (formula.mapPosition (· + distance)).mapPosition (· - distance) = formula := by
  have back : (· - distance) ∘ (· + distance) = id := by
    funext place
    exact Int.add_sub_cancel place distance
  rw [mapPosition_mapPosition, back, mapPosition_id]

theorem ofSource_of_blank (blank : ∀ character ∈ source.toList, Text.isBlank character = true) :
    ∃ fault, ofSource limits source = .error fault := by
  by_cases short : (source.length : Int) ≤ limits.maxLength
  · rw [ofSource_of_decomposes short (Token.Decomposes.of_blank blank)]
    exact ⟨_, rfl⟩
  · exact ⟨_, ofSource_of_long (Int.not_le.mp short)⟩

end Formula

namespace Selector

open Text (trimmed leadingBlanks untrimmedPlace)

variable {limits : Limits} {formula : String} {count : Int}

theorem treeOf_of_blank (limits : Limits)
    (blank : ∀ character ∈ formula.toList, Text.isBlank character = true) :
    trimmed formula = "" ∧ treeOf limits (trimmed formula) = .ok (.quantity 0) := by
  have empty : trimmed formula = "" := by
    rw [trimmed, Text.trim_blank _ blank]
  rw [empty]
  constructor <;> rfl

theorem treeOf_of_visible (limits : Limits)
    (visible : ∃ character ∈ formula.toList, Text.isBlank character = false) :
    treeOf limits (trimmed formula) = Formula.ofSource limits (trimmed formula) := by
  obtain ⟨character, member, visible⟩ := visible
  have filled : (trimmed formula).isEmpty = false := by
    rw [Bool.eq_false_iff]
    intro empty
    apply Text.trim_ne_nil member visible
    rw [← Text.trimmed_toList, String.isEmpty_iff.mp empty, String.toList_empty]
  rw [treeOf, filled]
  rfl

theorem compile_of_trimmed {other : String} (same : trimmed formula = trimmed other)
    (limits : Limits) (count : Value) :
    compile limits formula count = compile limits other count := by
  rw [compile, same, compile]

theorem compile_append {front rear : String}
    (before : ∀ character ∈ front.toList, Text.isBlank character = true)
    (behind : ∀ character ∈ rear.toList, Text.isBlank character = true) (limits : Limits)
    (formula : String) (count : Value) :
    compile limits (front ++ formula ++ rear) count = compile limits formula count := by
  apply compile_of_trimmed
  rw [trimmed, String.toList_append, String.toList_append, List.append_assoc,
    Text.trim_append before behind, trimmed]

theorem compile_again {given : Value} {selector : Selector} {events : List Event}
    (compiled : compile limits formula given = ⟨.ok selector, events⟩) :
    selector.formula = trimmed formula ∧
      compile limits selector.formula (.int selector.count) = ⟨.ok selector, events⟩ := by
  have found := compiled
  simp only [compile] at found
  cases read : treeOf limits (trimmed formula) with
  | error fault =>
      rw [read] at found
      cases congrArg Recorded.result found
  | ok tree =>
      rw [read] at found
      rcases build_cases (trimmed formula) given tree with ⟨other, built, made⟩ | ⟨refused, -⟩
      · simp only [built] at found
        cases congrArg Recorded.result found
        refine ⟨made.formula_eq, ?_⟩
        rw [← made.count_eq, ← compiled, made.formula_eq]
        apply compile_of_trimmed
        rw [trimmed, Text.trimmed_toList, Text.trim_trim, trimmed]
      · simp only [refused] at found
        cases congrArg Recorded.result found

/-- Compiling agrees with reading the source as it stands. A blank source selects by
the quantity itself, although it is no formula. Any other that is not too long is
compiled exactly when it is read, to the same tree with its places counted from
behind the blanks in front, and fails with the same report at another place. Further
blanks around a source change nothing, and the formula of a selector has none
and is compiled to the same selector. -/
theorem compile_trims [Writing] :
    (∀ (limits : Limits) (formula : String) (count : Int), 1 ≤ count →
      (∀ character ∈ formula.toList, Text.isBlank character = true) →
        (∃ selector, compile limits formula (.int count) =
            ⟨.ok selector, [.compiled "" count]⟩ ∧
          Made "" (.int count) (.quantity 0) selector) ∧
        ∃ fault, Formula.ofSource limits formula = .error fault) ∧
      (∀ (limits : Limits) (formula : String) (count : Int), 1 ≤ count →
        (∃ character ∈ formula.toList, Text.isBlank character = false) →
        (formula.length : Int) ≤ limits.maxLength →
          (∀ tree, Formula.ofSource limits formula = .ok tree →
            ∃ selector, compile limits formula (.int count) =
                ⟨.ok selector, [.compiled (trimmed formula) count]⟩ ∧
              Made (trimmed formula) (.int count)
                (tree.mapPosition (· - (leadingBlanks formula : Int))) selector) ∧
          ∀ fault, Formula.ofSource limits formula = .error fault →
            ∃ other, compile limits formula (.int count) =
                ⟨.error (.fault (trimmed formula) other), []⟩ ∧
              fault = other.mapPosition (untrimmedPlace formula) ∧
              (other.report (trimmed formula)).map Report.withoutPlace =
                (fault.report formula).map Report.withoutPlace ∧
              (other.report (trimmed formula)).map Report.kind =
                (fault.report formula).map Report.kind) ∧
      (∀ (limits : Limits) (front formula rear : String) (count : Value),
        (∀ character ∈ front.toList, Text.isBlank character = true) →
        (∀ character ∈ rear.toList, Text.isBlank character = true) →
          compile limits (front ++ formula ++ rear) count = compile limits formula count) ∧
      ∀ (limits : Limits) (formula : String) (count : Value) (selector : Selector)
        (events : List Event), compile limits formula count = ⟨.ok selector, events⟩ →
          (∀ character ∈ selector.formula.toList.head?, Text.isBlank character = false) ∧
          (∀ character ∈ selector.formula.toList.getLast?, Text.isBlank character = false) ∧
          compile limits selector.formula (.int selector.count) = ⟨.ok selector, events⟩ := by
  refine ⟨fun limits formula count positive blank => ?_,
    fun limits formula count positive visible short => ?_,
    fun limits front formula rear count before behind =>
      compile_append before behind limits formula count,
    fun limits formula count selector events compiled => ?_⟩
  · obtain ⟨empty, read⟩ := treeOf_of_blank limits blank
    have made := compile_of_read positive read
    rw [empty] at made
    exact ⟨made, Formula.ofSource_of_blank blank⟩
  · have moved := Formula.ofSource_untrimmed short
    have whole := treeOf_of_visible limits visible
    cases read : Formula.ofSource limits (trimmed formula) with
    | ok inner =>
        rw [read] at moved whole
        refine ⟨fun tree found => ?_, fun fault found => ?_⟩
        · cases moved.symm.trans found
          rw [Formula.mapPosition_add_sub]
          exact compile_of_read positive whole
        · cases moved.symm.trans found
    | error other =>
        rw [read] at moved whole
        refine ⟨fun tree found => ?_, fun fault found => ?_⟩
        · cases moved.symm.trans found
        · cases moved.symm.trans found
          have told := other.withoutPlace_mapPosition (untrimmedPlace formula)
            (trimmed formula) formula
          have kinds := congrArg (Option.map Report.kind) told
          rw [Option.map_map, Option.map_map] at kinds
          refine ⟨other, ?_, rfl, told.symm, kinds.symm⟩
          simp only [compile, whole]
  · obtain ⟨same, again⟩ := compile_again compiled
    refine ⟨?_, ?_, again⟩
    · rw [same, Text.trimmed_toList]
      exact Text.visible_head_trim _
    · rw [same, Text.trimmed_toList]
      exact Text.visible_last_trim _

attribute [local instance] Writing.standard

theorem compile_trims_blankEnds :
    (∃ selector, compile ⟨0, 0, 0⟩ "\t " (.int 3) = ⟨.ok selector, [.compiled "" 3]⟩ ∧
        selector.tree = .quantity 0) ∧
      (∃ selector, compile Limits.standard "  n != 1\n" (.int 2) =
          ⟨.ok selector, [.compiled (trimmed "  n != 1\n") 2]⟩ ∧
        selector.tree =
          .binary 2 (.known (.relational .notEqual)) (.quantity 0) (.literal 5 (.int 1)) ∧
        compile Limits.standard (" " ++ "  n != 1\n" ++ "\t") (.int 2) =
          ⟨.ok selector, [.compiled (trimmed "  n != 1\n") 2]⟩ ∧
        compile Limits.standard selector.formula (.int selector.count) =
          ⟨.ok selector, [.compiled (trimmed "  n != 1\n") 2]⟩) ∧
      Formula.ofSource Limits.standard " n + \t" =
        .error (.unexpected .operand (Token.finish 6)) ∧
      ∃ other, compile Limits.standard " n + \t" (.int 2) =
          ⟨.error (.fault (trimmed " n + \t") other), []⟩ ∧
        (other.report (trimmed " n + \t")).map Report.kind = some "syntax-error" := by
  obtain ⟨blank, visible, around, again⟩ := compile_trims
  have read : Formula.ofSource Limits.standard "  n != 1\n" =
      .ok (.binary 4 (.known (.relational .notEqual)) (.quantity 2) (.literal 7 (.int 1))) := by
    decide +kernel
  have missed : Formula.ofSource Limits.standard " n + \t" =
      .error (.unexpected .operand (Token.finish 6)) := by decide +kernel
  obtain ⟨⟨identity, compiled, made⟩, -⟩ :=
    blank ⟨0, 0, 0⟩ "\t " 3 (by decide) (List.all_eq_true.mp rfl)
  obtain ⟨succeeds, -⟩ :=
    visible Limits.standard "  n != 1\n" 2 (by decide) ⟨'n', by decide, by decide⟩ (by decide)
  obtain ⟨selector, chosen, whole⟩ := succeeds _ read
  obtain ⟨-, fails⟩ :=
    visible Limits.standard " n + \t" 2 (by decide) ⟨'n', by decide, by decide⟩ (by decide)
  obtain ⟨other, refused, -, -, kind⟩ := fails _ missed
  have framed := around Limits.standard " " "  n != 1\n" "\t" (.int 2)
    (List.all_eq_true.mp rfl) (List.all_eq_true.mp rfl)
  exact ⟨⟨identity, compiled, made.tree_eq⟩,
    ⟨selector, chosen, whole.tree_eq, framed.trans chosen, (again _ _ _ _ _ chosen).2.2⟩,
    missed, other, refused, kind⟩

end Selector

end PluralRule
