import PluralRule.Proofs.Places

/-!
Where the caret of a report stands. Below its message a report shows the source as
it is and then a caret, moved to the right by as many columns as characters are in
front of the place. Main statement: the caret is under the place exactly when the
source is a single line, or when the place is on its first line and its last line
repeats the first one behind two blanks. A place on any other line is missed.
-/

namespace PluralRule

namespace Text

def indented (line : List Char) : List Char := ' ' :: ' ' :: line

/-- The place is in the column of the line, which is a whole line of the text. The
column behind the last character belongs to the line as well. -/
structure LineAt (text : List Char) (place : Nat) (line : List Char) (column : Nat) : Prop where
  split : ∃ before behind, text = before ++ (line ++ behind) ∧
    (∀ character ∈ before.getLast?, character = '\n') ∧
    (∀ character ∈ behind.head?, character = '\n') ∧ place = before.length + column
  whole : '\n' ∉ line
  within : column ≤ line.length

/-- Moved by all characters in front of it, the place is in its column again, and the
line that holds it is the last one that is shown. -/
inductive Aligned (text : List Char) (place : Nat) : Prop where
  | single (whole : '\n' ∉ text) : Aligned text place
  | repeated {first rest : List Char} {between : List (List Char)}
      (split : text = first ++ '\n' :: rest) (whole : '\n' ∉ first)
      (within : place ≤ first.length)
      (again : rest.splitOn '\n' = between ++ [indented first]) : Aligned text place

variable {text word : List Char} {place column : Nat}

theorem LineAt.getElem?_eq {row : List Char} (stands : LineAt text place row column)
    (kept : text[place]? ≠ some '\n') : row[column]? = text[place]? := by
  obtain ⟨⟨before, behind, rfl, -, ends, rfl⟩, -, within⟩ := stands
  rw [List.getElem?_append_right (Nat.le_add_right _ _), Nat.add_sub_cancel_left] at kept ⊢
  rcases Nat.lt_or_eq_of_le within with inside | rfl
  · exact (List.getElem?_append_left inside).symm
  · rw [List.getElem?_append_right (Nat.le_refl _), Nat.sub_self] at kept ⊢
    rw [List.getElem?_eq_none (Nat.le_refl _)]
    cases behind with
    | nil => rfl
    | cons next others =>
        obtain rfl := ends next rfl
        exact absurd rfl kept

theorem Aligned.not_mem_take (aligned : Aligned text place) : '\n' ∉ text.take place := by
  cases aligned with
  | single whole => exact fun feed => whole (List.mem_of_mem_take feed)
  | repeated split whole within again =>
      rw [split, List.take_append_of_le_length within]
      exact fun feed => whole (List.mem_of_mem_take feed)

theorem lineAt_of_whole (whole : '\n' ∉ text) (within : place ≤ text.length) :
    LineAt text place text place :=
  ⟨⟨[], [], by simp, by simp, by simp, by simp⟩, whole, within⟩

theorem lineAt_first {first : List Char} (rest : List Char) (whole : '\n' ∉ first)
    (within : place ≤ first.length) : LineAt (first ++ '\n' :: rest) place first place :=
  ⟨⟨[], '\n' :: rest, by simp, by simp, by simp, by simp⟩, whole, within⟩

theorem visible_of_isPrefix {character : Char} (filled : word ≠ [])
    (visible : word.any isBlank = false) (begins : word <+: text.drop place)
    (here : text[place]? = some character) : isBlank character = false := by
  obtain ⟨behind, split⟩ := begins
  cases word with
  | nil => exact absurd rfl filled
  | cons first others =>
      have heads := congrArg List.head? split
      rw [List.head?_drop, here] at heads
      have member : character ∈ first :: others := Option.some.inj heads ▸ List.mem_cons_self
      exact Bool.eq_false_iff.mpr (List.any_eq_false.mp visible character member)

end Text

theorem Mishap.visible_of_mem_operators {mishap : Mishap} {symbol : String}
    (fails : symbol ∈ mishap.operators) :
    symbol.toList ≠ [] ∧ symbol.toList.any Text.isBlank = false := by
  have checked : ∀ sign ∈ mishap.operators,
      sign.toList ≠ [] ∧ sign.toList.any Text.isBlank = false := by
    cases mishap <;> decide
  exact checked symbol fails

namespace Report

open Text (Aligned LineAt indented isBlank isDigit runAt)

/-- The display ends with the line of the source that holds the place and, below it,
with a caret under the character at the place, or behind the line at the very end. -/
def CaretUnder (source : String) (place : Nat) (display : String) : Prop :=
  ∃ above line column, LineAt source.toList place line column ∧
    (indented line)[2 + column]? = source.toList[place]? ∧
    display.toList.splitOn '\n' =
      above ++ [indented line, List.replicate (2 + column) ' ' ++ ['^']]

inductive Raised [Writing] (limits : Limits) (source : String) : Report → Prop where
  | reading {fault : Fault} {report : Report}
      (refused : Formula.ofSource limits source = .error fault)
      (reported : fault.report source = some report) : Raised limits source report
  | evaluating {formula : Formula} {quantity : Int} {report : Report}
      (read : Formula.ofSource limits source = .ok formula)
      (failed : formula.evaluateReported (some source) quantity = .ok (.error report)) :
      Raised limits source report

variable {limits : Limits} {source : String} {place : Nat} {report : Report}

theorem Raised.faithful [Writing] (raised : report.Raised limits source) :
    report.Faithful limits source := by
  cases raised with
  | reading refused reported => exact Formula.faithful_of_refused refused reported
  | evaluating read failed => exact Formula.faithful_of_reported read failed

theorem Faithful.placed (faithful : report.Faithful limits source)
    (located : report.kind ≠ "limit-exceeded") :
    ∃ place : Nat, report.position = some (place : Int) ∧ report.expression = some source ∧
      place ≤ source.length ∧ report.Tells limits source place := by
  unfold Faithful at faithful
  split at faithful
  · next name limit actual details =>
    exact absurd (congrArg Details.kind details) located
  · obtain ⟨shown, place, placed, inside, tells⟩ := faithful
    exact ⟨place, placed, shown, inside, tells⟩

theorem visible_of_token {tokens : List Token} {token : Token} {character : Char}
    (scanned : Token.ofSource limits source = .ok tokens) (member : token ∈ tokens)
    (placed : token.position = place) (here : source.toList[place]? = some character) :
    isBlank character = false := by
  obtain ⟨inside, -⟩ := List.getElem?_eq_some_iff.mp here
  rw [String.length_toList] at inside
  have short : (source.length : Int) ≤ limits.maxLength := by
    by_contra long
    rw [Token.ofSource_of_long (Int.not_le.mp long)] at scanned
    cases scanned
  obtain ⟨lexemes, rfl, decomposes⟩ := (Token.ofSource_eq_ok_iff short tokens).mp scanned
  rcases List.mem_append.mp member with among | last
  · obtain ⟨own, stood, -, stands⟩ := decomposes.lexemes token among
    obtain rfl := Int.ofNat.inj (stood.symm.trans placed)
    exact stands.visible here
  · rw [List.mem_singleton.mp last] at placed
    exact absurd (Int.ofNat.inj placed).symm (Nat.ne_of_lt inside)

/-- No report points at a blank. -/
theorem Tells.visible (tells : report.Tells limits source place) {character : Char}
    (here : source.toList[place]? = some character) : isBlank character = false := by
  obtain ⟨inside, -⟩ := List.getElem?_eq_some_iff.mp here
  rw [String.length_toList] at inside
  unfold Tells at tells
  -- What a report tells depends on its kind; each names something that is no blank.
  split at tells
  · obtain ⟨first, stands, visible, -⟩ := tells
    rw [stands] at here
    cases here
    exact visible
  · obtain ⟨ends, more⟩ := tells
    obtain ⟨tokens, token, scanned, member, placed, -⟩ :=
      more fun last => Nat.ne_of_lt inside (ends.mpr last)
    exact visible_of_token scanned member placed here
  · obtain ⟨-, -, filled, run⟩ := tells
    have begins : runAt isDigit source.toList place <+: source.toList.drop place :=
      List.takeWhile_prefix isDigit
    refine Text.visible_of_isPrefix ?_ (List.any_eq_false.mpr fun digit kept => ?_) begins here
    · rw [← run]
      exact fun empty => filled (String.toList_inj.mp empty)
    · rw [Token.visible_of_digit (List.all_eq_true.mp List.all_takeWhile digit kept)]
      exact Bool.false_ne_true
  · next mishap operator text shown =>
    cases operator with
    | none => exact Text.visible_of_isPrefix (by decide) (by decide) tells.2.2 here
    | some symbol =>
        obtain ⟨-, fails, begins⟩ := tells
        obtain ⟨filled, visible⟩ := mishap.visible_of_mem_operators fails
        exact Text.visible_of_isPrefix filled visible begins here
  · exact absurd tells id
  · exact absurd tells id

/-- What is shown is the message, the source behind two blanks, and the caret. -/
theorem splitOn_context (shown : report.expression = some source)
    (placed : report.position = some (place : Int)) :
    report.context.toList.splitOn '\n' =
      report.message.toList.splitOn '\n' ++ ((indented source.toList).splitOn '\n' ++
        [List.replicate (2 + place) ' ' ++ ['^']]) := by
  have characters : report.context.toList =
      report.message.toList ++ '\n' :: (indented source.toList ++
        '\n' :: (List.replicate (2 + place) ' ' ++ ['^'])) := by
    simp [context, shown, placed, spaces, indented, List.replicate_add]
  have last : '\n' ∉ List.replicate (2 + place) ' ' ++ ['^'] := by simp [List.mem_replicate]
  rw [characters, List.splitOn_append_cons_self, List.splitOn_append_cons_self,
    List.splitOn_eq_singleton last]

/-- The caret is in the column of the place in the source as a whole, so that this is
its column in the line as well, and the line is the last one of the source. -/
theorem caretUnder_iff (shown : report.expression = some source)
    (placed : report.position = some (place : Int)) :
    CaretUnder source place report.context ↔
      ∃ above line, LineAt source.toList place line place ∧
        (indented line)[2 + place]? = source.toList[place]? ∧
        (indented source.toList).splitOn '\n' = above ++ [indented line] := by
  rw [CaretUnder, splitOn_context shown placed]
  constructor
  · rintro ⟨above, line, column, stands, character, display⟩
    rw [← List.append_assoc, List.append_cons above] at display
    obtain ⟨lines, carets⟩ := List.append_inj' display rfl
    obtain rfl : place = column := by
      have widths := congrArg List.length (List.cons.inj carets).1
      simp only [List.length_append, List.length_replicate] at widths
      omega
    -- The caret has the last line to itself, so the line above it is the last of the source.
    obtain ⟨front, last, split⟩ :=
      (List.eq_nil_or_concat ((indented source.toList).splitOn '\n')).resolve_left
        (List.splitOn_ne_nil _ _)
    rw [split, List.concat_eq_append, ← List.append_assoc] at lines
    obtain ⟨-, same⟩ := List.append_inj' lines rfl
    exact ⟨front, line, stands, character, by rw [split, List.concat_eq_append, same]⟩
  · rintro ⟨above, line, stands, character, lines⟩
    refine ⟨report.message.toList.splitOn '\n' ++ above, line, place, stands, character, ?_⟩
    rw [lines]
    simp

theorem caretUnder_iff_aligned (shown : report.expression = some source)
    (placed : report.position = some (place : Int)) (inside : place ≤ source.length)
    (kept : source.toList[place]? ≠ some '\n') :
    CaretUnder source place report.context ↔ Aligned source.toList place := by
  have alone {line : List Char} (whole : '\n' ∉ line) : '\n' ∉ indented line := by
    simp [indented, whole]
  have character {line : List Char} (stands : LineAt source.toList place line place) :
      (indented line)[2 + place]? = source.toList[place]? := by
    rw [← stands.getElem?_eq kept, Nat.add_comm]
    rfl
  rw [caretUnder_iff shown placed]
  constructor
  · rintro ⟨above, line, ⟨⟨before, behind, split, -, ends, counted⟩, whole, within⟩, -, lines⟩
    -- A column that counts from the start of the source leaves nothing in front of the line.
    obtain rfl : before = [] := List.eq_nil_of_length_eq_zero (by omega)
    rw [List.nil_append] at split
    cases behind with
    | nil =>
        rw [List.append_nil] at split
        exact .single (split ▸ whole)
    | cons next rest =>
        obtain rfl := ends next rfl
        rw [split] at lines
        have parts : (indented (line ++ '\n' :: rest)).splitOn '\n' =
            indented line :: rest.splitOn '\n' :=
          List.splitOn_append_cons_self_of_not_mem (alone whole) rest
        rw [parts] at lines
        cases above with
        | nil => exact absurd (List.cons.inj lines).2 (List.splitOn_ne_nil _ _)
        | cons first between => exact .repeated split whole within (List.cons.inj lines).2
  · intro aligned
    cases aligned with
    | single whole =>
        rw [← String.length_toList] at inside
        have stands := Text.lineAt_of_whole whole inside
        exact ⟨[], _, stands, character stands, List.splitOn_eq_singleton (alone whole)⟩
    | @repeated first rest between split whole within again =>
        have stands := Text.lineAt_first rest whole within
        rw [← split] at stands
        refine ⟨indented first :: between, first, stands, character stands, ?_⟩
        rw [split, List.cons_append, ← again]
        exact List.splitOn_append_cons_self_of_not_mem (alone whole) rest

/-- Whatever is raised about a source, limits apart, has a place in it, and the caret is
under the place exactly when the whole source lines up with it: a source of one line
always does, and a place behind a line feed never. -/
theorem caretUnder_context_iff [Writing] (raised : report.Raised limits source)
    (located : report.kind ≠ "limit-exceeded") :
    ∃ place : Nat, report.position = some (place : Int) ∧ place ≤ source.length ∧
      (CaretUnder source place report.context ↔ Aligned source.toList place) := by
  obtain ⟨place, placed, shown, inside, tells⟩ := raised.faithful.placed located
  refine ⟨place, placed, inside, caretUnder_iff_aligned shown placed inside fun feed => ?_⟩
  have visible := tells.visible feed
  cases visible

attribute [local instance] Writing.standard

theorem caretUnder_context_iff_loneEquals :
    ∃ report : Report, report.Raised Limits.standard "n = 1" ∧ report.kind ≠ "limit-exceeded" ∧
      report.context = "Unexpected '='. Did you mean '=='?\n  n = 1\n    ^" ∧
      CaretUnder "n = 1" 2 report.context := by
  have stuck : Token.scan 0 "n = 1".toList =
      ⟨[⟨.quantity, "n", 0⟩], 3, some (2, .half '=')⟩ := by
    decide +kernel
  have refused : Formula.ofSource Limits.standard "n = 1" = .error (.lexical 2 (.half '=')) := by
    rw [Formula.ofSource, Token.ofSource, Scanner.run_start (by decide), stuck]
    rfl
  have raised := Raised.reading refused rfl
  obtain ⟨place, placed, -, under⟩ := caretUnder_context_iff raised (by decide)
  obtain rfl : place = 2 := Int.ofNat.inj (Option.some.inj placed).symm
  exact ⟨_, raised, by decide, by rfl, under.mpr (.single (by decide))⟩

/-- An equals sign by itself on a second line, which the caret misses: the line above
it is not indented, and the caret is two columns behind the sign. -/
theorem not_caretUnder_secondLine :
    ∃ report : Report, report.Raised Limits.standard "n\n= 1" ∧ report.kind = "lexical-error" ∧
      report.position = some 2 ∧
      report.context = "Unexpected '='. Did you mean '=='?\n  n\n= 1\n    ^" ∧
      ¬ CaretUnder "n\n= 1" 2 report.context := by
  have stuck : Token.scan 0 "n\n= 1".toList =
      ⟨[⟨.quantity, "n", 0⟩], 3, some (2, .half '=')⟩ := by
    decide +kernel
  have refused : Formula.ofSource Limits.standard "n\n= 1" = .error (.lexical 2 (.half '=')) := by
    rw [Formula.ofSource, Token.ofSource, Scanner.run_start (by decide), stuck]
    rfl
  refine ⟨_, .reading refused rfl, rfl, rfl, by rfl, fun under => ?_⟩
  have aligned : Aligned "n\n= 1".toList 2 :=
    (caretUnder_iff_aligned rfl rfl (by decide) (by decide)).mp under
  exact absurd aligned.not_mem_take (by decide)

end Report

end PluralRule
