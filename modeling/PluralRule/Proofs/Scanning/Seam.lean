import PluralRule.Proofs.Scanning.Decomposition

/-!
Texts put together and taken apart. Where one text ends and another begins, the
lexemes of both are the lexemes of the whole, unless the last one of the front
goes on behind the seam. Main statements: decompositions are joined at a seam
that no lexeme goes on behind, a decomposition is cut at every place that is not
inside of a token, and a token can be exchanged for a text with one token in it.
-/

namespace PluralRule.Token

open Text (isBlank isDigit)

def mapPosition (move : Int → Int) (token : Token) : Token :=
  { token with position := move token.position }

/-- No token that ends with the text in front goes on with the text behind it. -/
def Parted (tokens : List Token) (before behind : List Char) : Prop :=
  ∀ token ∈ tokens, token.stop = before.length →
    ∀ next ∈ behind.head?, ¬ Prolongs token.text.toList next

/-- The text holds one token that can take the place of another one: what is in
front does not go on with the text if it did not go on with the old token, and the
new token does not go on with what is behind if the old one did not. -/
structure Exchanges (token : Token) (fresh : List Char) (other : Token) : Prop where
  single : Decomposes fresh 0 [other]
  enters : ∀ word, ∀ next ∈ fresh.head?, Prolongs word next →
    ∃ old ∈ token.text.toList.head?, Prolongs word old
  leaves : other.stop = fresh.length → ∀ next, Prolongs other.text.toList next →
    Prolongs token.text.toList next

variable {before behind word fresh : List Char} {place : Nat} {kind : Kind}
  {tokens first second front rear : List Token} {token other : Token}

theorem map_mapPosition_add (tokens : List Token) (inner outer : Int) :
    (tokens.map (mapPosition (· + inner))).map (mapPosition (· + outer)) =
      tokens.map (mapPosition (· + (outer + inner))) := by
  rw [List.map_map]
  apply List.map_congr_left
  intro token _
  simp only [Function.comp_apply, mapPosition]
  congr 1
  omega

theorem visible_of_wordPart {character : Char} (part : isWordPart character = true) :
    isBlank character = false := by
  simp only [isWordPart, Bool.or_eq_true] at part
  rcases part with start | digit
  · simp only [isWordStart, Bool.or_eq_true, Bool.and_eq_true, decide_eq_true_eq] at start
    have letter : 65 ≤ character.toNat ∧ character.toNat ≤ 122 := by
      rcases start with (⟨above, below⟩ | ⟨above, below⟩) | rfl
      · have high : 97 ≤ character.toNat := above
        have low : character.toNat ≤ 122 := below
        omega
      · have high : 65 ≤ character.toNat := above
        have low : character.toNat ≤ 90 := below
        omega
      · decide
    simp [isBlank, Text.within, Text.blankRanges]
    omega
  · exact visible_of_digit digit

theorem not_prolongs_blank {next : Char} (blank : isBlank next = true) : ¬ Prolongs word next := by
  rintro (⟨-, digit⟩ | ⟨-, part⟩ | ⟨-, rfl⟩)
  · rw [visible_of_digit digit] at blank
    cases blank
  · rw [visible_of_wordPart part] at blank
    cases blank
  · cases blank

theorem Prolongs.of_digit {next digit : Char} (prolongs : Prolongs word next)
    (was : isDigit next = true) (now : isDigit digit = true) : Prolongs word digit := by
  rcases prolongs with ⟨numeral, -⟩ | ⟨wordlike, -⟩ | ⟨-, rfl⟩
  · exact Or.inl ⟨numeral, now⟩
  · exact Or.inr (Or.inl ⟨wordlike, wordPart_of_digit now⟩)
  · cases was

theorem Stands.append_left (stands : Stands before place kind word)
    (apart : place + word.length = before.length → ∀ next ∈ behind.head?, ¬ Prolongs word next) :
    Stands (before ++ behind) place kind word := by
  have inside := stands.le_length
  refine ⟨stands.written, ?_, fun next member => ?_⟩
  · have here := stands.here
    rw [WrittenAt] at here ⊢
    rw [List.drop_append_of_le_length (by omega), List.take_append_of_le_length ?_, here]
    rw [List.length_drop]
    omega
  · rcases Nat.lt_or_eq_of_le inside with more | ends
    · rw [List.getElem?_append_left more] at member
      exact stands.maximal next member
    · rw [List.getElem?_append_right (Nat.le_of_eq ends.symm), ends, Nat.sub_self,
        ← List.head?_eq_getElem?] at member
      exact apart ends next member

theorem stands_append_iff :
    Stands (before ++ behind) (before.length + place) kind word ↔
      Stands behind place kind word := by
  rw [← stands_drop_iff, ← List.drop_drop, List.drop_left, stands_drop_iff]

namespace Decomposes

theorem single (written : kind.Written word) :
    Decomposes word 0 [⟨kind, String.ofList word, 0⟩] := by
  refine .cons ⟨written, ?_, fun next member => ?_⟩ (.nil (by omega))
  · rw [WrittenAt, List.drop_zero, List.take_length]
  · rw [List.getElem?_eq_none (by omega)] at member
    cases member

theorem of_blank {blanks : List Char}
    (blank : ∀ character ∈ blanks, isBlank character = true) : Decomposes blanks 0 [] :=
  ⟨.nil, by simp, fun _ character _ here _ => blank character (List.mem_of_getElem? here)⟩

/-- Texts with nothing at their seam that goes on behind it are taken apart one by one. -/
theorem join (left : Decomposes before 0 first) (right : Decomposes behind 0 second)
    (parted : Parted first before behind) :
    Decomposes (before ++ behind) 0
      (first ++ second.map (mapPosition (· + (before.length : Int)))) := by
  have ends : ∀ token ∈ first, ∃ place : Nat, token.position = place ∧
      Stands before place token.kind token.text.toList ∧ token.stop ≤ before.length := by
    intro token member
    obtain ⟨place, placed, -, stands⟩ := left.lexemes token member
    have inside := stands.le_length
    rw [String.length_toList] at inside
    exact ⟨place, placed, stands, by simp only [stop, placed]; omega⟩
  refine ⟨?_, fun token member => ?_, fun place character _ here free => ?_⟩
  -- The tokens of the left text end at the seam or before, those of the right one begin behind.
  · refine List.pairwise_append.mpr ⟨left.ordered, ?_, fun token member other moved => ?_⟩
    · refine List.pairwise_map.mpr (right.ordered.imp ?_)
      intro earlier later apart
      simp only [mapPosition, stop] at apart ⊢
      omega
    · obtain ⟨place, placed, stands, ended⟩ := ends token member
      obtain ⟨behindToken, member, rfl⟩ := List.mem_map.mp moved
      obtain ⟨its, itsPlaced, -, -⟩ := right.lexemes behindToken member
      have positive := stands.length_pos
      rw [String.length_toList] at positive
      simp only [mapPosition, stop, placed, itsPlaced] at ended ⊢
      omega
  · rcases List.mem_append.mp member with old | moved
    · obtain ⟨place, placed, stands, -⟩ := ends token old
      refine ⟨place, placed, Nat.zero_le _, stands.append_left fun last => ?_⟩
      apply parted token old
      rw [String.length_toList] at last
      simp only [stop, placed]
      omega
    · obtain ⟨other, old, rfl⟩ := List.mem_map.mp moved
      obtain ⟨place, placed, -, stands⟩ := right.lexemes other old
      refine ⟨before.length + place, ?_, Nat.zero_le _, stands_append_iff.mpr stands⟩
      simp only [mapPosition, placed]
      omega
  -- A place that no token of the whole covers is covered by none of its own text.
  · by_cases inside : place < before.length
    · rw [List.getElem?_append_left inside] at here
      exact left.blank place character (Nat.zero_le _) here fun token member =>
        free token (List.mem_append_left _ member)
    · rw [List.getElem?_append_right (Nat.le_of_not_lt inside)] at here
      refine right.blank (place - before.length) character (Nat.zero_le _) here
        fun token member covers => ?_
      refine free _ (List.mem_append_right _ (List.mem_map_of_mem member)) ?_
      simp only [Covers, mapPosition, stop] at covers ⊢
      omega

theorem spaced (written : kind.Written word) :
    Decomposes (' ' :: word ++ [' ']) 0 [⟨kind, String.ofList word, 1⟩] := by
  have blank : ∀ character ∈ [' '], isBlank character = true :=
    List.forall_mem_singleton.mpr (by decide)
  have front := (of_blank blank).join (single written) (by simp [Parted])
  exact front.join (of_blank blank) fun token _ _ next head => by
    obtain rfl := Option.some.inj head
    exact not_prolongs_blank (by decide)

/-- A place that no token takes up both sides of parts the tokens. -/
theorem exists_parts (ordered : tokens.Pairwise fun earlier later =>
      earlier.position < later.position ∧ earlier.stop ≤ later.position) (place : Int)
    (outside : ∀ token ∈ tokens, ¬ (token.position < place ∧ place < token.stop)) :
    ∃ first second, tokens = first ++ second ∧ (∀ token ∈ first, token.stop ≤ place) ∧
      ∀ token ∈ second, place ≤ token.position := by
  induction tokens with
  | nil => exact ⟨[], [], rfl, by simp, by simp⟩
  | cons token rest ih =>
      obtain ⟨ahead, later⟩ := List.pairwise_cons.mp ordered
      by_cases ends : token.stop ≤ place
      · obtain ⟨first, second, rfl, front, rear⟩ :=
          ih later fun other member => outside other (List.mem_cons_of_mem _ member)
        exact ⟨token :: first, second, rfl, List.forall_mem_cons.mpr ⟨ends, front⟩, rear⟩
      · have begins := outside token List.mem_cons_self
        refine ⟨[], token :: rest, rfl, by simp, List.forall_mem_cons.mpr ⟨by omega, ?_⟩⟩
        intro other member
        have apart := (ahead other member).1
        omega

section Cut

variable (whole : Decomposes (before ++ behind) 0 (first ++ second))
  (ends : ∀ token ∈ first, token.stop ≤ before.length)
  (begins : ∀ token ∈ second, (before.length : Int) ≤ token.position)

include whole ends begins in
theorem cut_left : Decomposes before 0 first := by
  obtain ⟨ordered, -, -⟩ := List.pairwise_append.mp whole.ordered
  refine ⟨ordered, fun token member => ?_, fun place character _ here free => ?_⟩
  · obtain ⟨place, placed, -, stands⟩ := whole.lexemes token (List.mem_append_left _ member)
    have inside : place + token.text.toList.length ≤ before.length := by
      have ended := ends token member
      rw [String.length_toList]
      simp only [stop, placed] at ended
      omega
    have taken := stands.take inside
    rw [List.take_left] at taken
    exact ⟨place, placed, Nat.zero_le _, taken⟩
  · obtain ⟨inside, -⟩ := List.getElem?_eq_some_iff.mp here
    rw [← List.getElem?_append_left inside] at here
    refine whole.blank place character (Nat.zero_le _) here
      (List.forall_mem_append.mpr ⟨free, fun token member covers => ?_⟩)
    have seam := begins token member
    have reached := covers.1
    omega

include whole ends begins in
theorem cut_right :
    Decomposes behind 0 (second.map (mapPosition (· - (before.length : Int)))) := by
  obtain ⟨-, ordered, -⟩ := List.pairwise_append.mp whole.ordered
  refine ⟨?_, fun moved present => ?_, fun place character _ here free => ?_⟩
  · refine List.pairwise_map.mpr (ordered.imp ?_)
    intro earlier later apart
    simp only [mapPosition, stop] at apart ⊢
    omega
  · obtain ⟨token, member, rfl⟩ := List.mem_map.mp present
    obtain ⟨place, placed, -, stands⟩ := whole.lexemes token (List.mem_append_right _ member)
    have seam := begins token member
    obtain ⟨distance, rfl⟩ := Nat.exists_eq_add_of_le (show before.length ≤ place by omega)
    refine ⟨distance, ?_, Nat.zero_le _, stands_append_iff.mp stands⟩
    simp only [mapPosition, placed]
    omega
  · have there : (before ++ behind)[before.length + place]? = some character := by
      rw [List.getElem?_append_right (Nat.le_add_right _ _), Nat.add_sub_cancel_left]
      exact here
    refine whole.blank _ character (Nat.zero_le _) there
      (List.forall_mem_append.mpr ⟨fun token member covers => ?_, fun token member covers => ?_⟩)
    · have ended := ends token member
      have reached := covers.2
      omega
    · refine free _ (List.mem_map_of_mem member) ?_
      simp only [Covers, mapPosition, stop] at covers ⊢
      omega

include whole in
theorem parted_of_cut : Parted first before behind := by
  intro token member ended next head
  obtain ⟨place, placed, -, stands⟩ := whole.lexemes token (List.mem_append_left _ member)
  apply stands.maximal next
  have last : place + token.text.toList.length = before.length := by
    rw [String.length_toList]
    simp only [stop, placed] at ended
    omega
  rw [last, List.getElem?_append_right (Nat.le_refl _), Nat.sub_self, ← List.head?_eq_getElem?]
  exact head

end Cut

/-- Tokens on either side of a seam take the texts on either side apart. -/
theorem cut (whole : Decomposes (before ++ behind) 0 (first ++ second))
    (ends : ∀ token ∈ first, token.stop ≤ before.length)
    (begins : ∀ token ∈ second, (before.length : Int) ≤ token.position) :
    ∃ later, second = later.map (mapPosition (· + (before.length : Int))) ∧
      Decomposes before 0 first ∧ Decomposes behind 0 later ∧ Parted first before behind := by
  refine ⟨second.map (mapPosition (· - (before.length : Int))), ?_, whole.cut_left ends begins,
    whole.cut_right ends begins, whole.parted_of_cut⟩
  have back : mapPosition (· + (before.length : Int)) ∘ mapPosition (· - (before.length : Int)) =
      id := by
    funext token
    simp [mapPosition]
  rw [List.map_map, back, List.map_id]

theorem cut_token (whole : Decomposes (before ++ (token.text.toList ++ behind)) 0
      (front ++ token :: rear)) (placed : token.position = before.length) :
    ∃ later : List Token,
      rear = later.map (mapPosition (· + (before.length + token.text.length : Int))) ∧
      Decomposes before 0 front ∧ Decomposes behind 0 later ∧
      Parted front before (token.text.toList ++ behind) ∧
      ∀ next ∈ behind.head?, ¬ Prolongs token.text.toList next := by
  obtain ⟨-, ordered, apart⟩ := List.pairwise_append.mp whole.ordered
  have ahead := (List.pairwise_cons.mp ordered).1
  obtain ⟨later, moved, left, right, parted⟩ := whole.cut
    (fun other member => by
      have ended := (apart other member token List.mem_cons_self).2
      omega)
    (List.forall_mem_cons.mpr ⟨by omega, fun other member => by
      have behindToken := (ahead other member).1
      omega⟩)
  cases later with
  | nil => cases moved
  | cons head tail =>
      obtain ⟨rfl, rfl⟩ := List.cons.inj moved
      have begins : head.position = 0 := by
        simp only [mapPosition] at placed
        omega
      -- The token ends where the text behind it begins.
      have ended : head.stop = (head.text.toList.length : Int) := by
        rw [stop, begins, String.length_toList]
        omega
      have distant := (List.pairwise_cons.mp right.ordered).1
      have split : Decomposes (head.text.toList ++ behind) 0 ([head] ++ tail) := right
      obtain ⟨last, rfl, -, rest, closed⟩ := split.cut (by simp [ended])
        (fun other member => by
          have behindToken := (distant other member).2
          rw [ended] at behindToken
          exact behindToken)
      refine ⟨last, ?_, left, rest, parted, closed head (List.mem_singleton_self head) ended⟩
      rw [map_mapPosition_add, String.length_toList]
      rfl

/-- The text of a token is exchanged for a text that can take its place. -/
theorem exchange (whole : Decomposes (before ++ (token.text.toList ++ behind)) 0
      (front ++ token :: rear)) (placed : token.position = before.length)
    (exchanges : Exchanges token fresh other) :
    ∃ later : List Token,
      rear = later.map (mapPosition (· + (before.length + token.text.length : Int))) ∧
      Decomposes (before ++ (fresh ++ behind)) 0
        (front ++ other.mapPosition (· + (before.length : Int)) ::
          later.map (mapPosition (· + (before.length + fresh.length : Int)))) := by
  obtain ⟨later, moved, left, right, parted, closed⟩ := whole.cut_token placed
  refine ⟨later, moved, ?_⟩
  have tail : Decomposes (fresh ++ behind) 0
      ([other] ++ later.map (mapPosition (· + (fresh.length : Int)))) := by
    refine exchanges.single.join right fun last member ended next head prolongs => ?_
    obtain rfl := List.mem_singleton.mp member
    exact closed next head (exchanges.leaves ended next prolongs)
  have parts : Parted front before (fresh ++ behind) := by
    intro last member ended next head prolongs
    -- The new text is not empty, since a token stands in it.
    obtain ⟨place, -, -, stands⟩ :=
      exchanges.single.lexemes other (List.mem_singleton_self other)
    have positive := stands.length_pos
    have inside := stands.le_length
    cases fresh with
    | nil =>
        rw [List.length_nil] at inside
        omega
    | cons first rest =>
        obtain ⟨old, starts, goesOn⟩ := exchanges.enters _ next head prolongs
        refine parted last member ended old ?_ goesOn
        simp only [List.head?_append, Option.mem_def] at starts ⊢
        rw [starts]
        rfl
  have joined := left.join tail parts
  rw [List.map_append, map_mapPosition_add] at joined
  exact joined

end Decomposes

end PluralRule.Token
