import PluralRule.Token.Scan

/-!
What a lexeme is, said without regard to how texts are scanned: a spelling of
its kind that stands at a place of a text and does not go on behind its end.
Main statements: the lexeme that is read at the head of a text is the one that
stands there, and where none is read the obstacle says why.
-/

namespace PluralRule.Token

open Text (isBlank isDigit)

/-- The fixed spellings of a kind. Numbers are not listed, and the end is not written. -/
def Kind.spellings : Kind → List (List Char)
  | .quantity => [['n']]
  | .plus => [['+']]
  | .minus => [['-']]
  | .star => [['*']]
  | .slash => [['/']]
  | .percent => [['%']]
  | .less => [['<']]
  | .atMost => [['<', '=']]
  | .greater => [['>']]
  | .atLeast => [['>', '=']]
  | .equal => [['=', '=']]
  | .notEqual => [['!', '=']]
  | .and => [['&', '&'], ['a', 'n', 'd']]
  | .or => [['|', '|'], ['o', 'r']]
  | .not => [['!'], ['n', 'o', 't']]
  | .question => [['?']]
  | .colon => [[':']]
  | .opening => [['(']]
  | .closing => [[')']]
  | .number => []
  | .finish => []

def Numeral (word : List Char) : Prop := word ≠ [] ∧ ∀ c ∈ word, isDigit c = true

/-- Words begin with a letter or a low line, and digits may follow. -/
def Wordlike (word : List Char) : Prop :=
  ∃ first rest, word = first :: rest ∧ isWordStart first = true ∧
    ∀ c ∈ rest, isWordPart c = true

def Kind.Written (kind : Kind) (word : List Char) : Prop :=
  (kind = .number ∧ Numeral word) ∨ word ∈ kind.spellings

/-- With the character behind it the word would be part of a longer one. -/
def Prolongs (word : List Char) (next : Char) : Prop :=
  (Numeral word ∧ isDigit next = true) ∨ (Wordlike word ∧ isWordPart next = true) ∨
    (word ∈ [['<'], ['>'], ['!']] ∧ next = '=')

def WrittenAt (text : List Char) (place : Nat) (word : List Char) : Prop :=
  (text.drop place).take word.length = word

/-- A lexeme stands at the place of the text, as long as it can be. -/
structure Stands (text : List Char) (place : Nat) (kind : Kind) (word : List Char) : Prop where
  written : kind.Written word
  here : WrittenAt text place word
  maximal : ∀ next ∈ text[place + word.length]?, ¬ Prolongs word next

inductive Obstructs (text : List Char) (place : Nat) : Obstacle → Prop where
  | half {symbol : Char} (here : text[place]? = some symbol) (halved : symbol ∈ ['=', '&', '|'])
      (lone : text[place + 1]? ≠ some symbol) : Obstructs text place (.half symbol)
  | word {word : List Char} (wordlike : Wordlike word) (here : WrittenAt text place word)
      (maximal : ∀ next ∈ text[place + word.length]?, isWordPart next = false)
      (meaningless : ∀ kind : Kind, ¬ kind.Written word) : Obstructs text place (.word word)
  | stray {character : Char} (here : text[place]? = some character)
      (letterless : isWordPart character = false) (unpaired : character ∉ ['=', '&', '|'])
      (meaningless : ∀ kind : Kind, ¬ kind.Written [character]) :
      Obstructs text place (.stray character)

theorem spelled_of_pair {first second : Char} {kind : Kind}
    (paired : pairKind? first second = some kind) : [first, second] ∈ kind.spellings := by
  unfold pairKind? at paired
  split at paired <;> cases paired <;> decide

theorem spelled_of_single {symbol : Char} {kind : Kind} (alone : singleKind? symbol = some kind) :
    [symbol] ∈ kind.spellings := by
  unfold singleKind? at alone
  split at alone <;> cases alone <;> decide

theorem spelled_of_word {word : List Char} {kind : Kind} (known : wordKind? word = some kind) :
    word ∈ kind.spellings := by
  unfold wordKind? at known
  split at known <;> cases known <;> decide

theorem spelled_cases {kind : Kind} {word : List Char} (spelled : word ∈ kind.spellings) :
    (∃ first second, word = [first, second] ∧ pairKind? first second = some kind) ∨
      (∃ symbol, word = [symbol] ∧ singleKind? symbol = some kind) ∨
      wordKind? word = some kind := by
  cases kind <;> simp only [Kind.spellings, List.mem_cons, List.not_mem_nil, or_false] at spelled
  case and =>
    rcases spelled with rfl | rfl
    · exact Or.inl ⟨_, _, rfl, rfl⟩
    · exact Or.inr (Or.inr rfl)
  case or =>
    rcases spelled with rfl | rfl
    · exact Or.inl ⟨_, _, rfl, rfl⟩
    · exact Or.inr (Or.inr rfl)
  case not =>
    rcases spelled with rfl | rfl
    · exact Or.inr (Or.inl ⟨_, rfl, rfl⟩)
    · exact Or.inr (Or.inr rfl)
  case quantity => exact Or.inr (Or.inr (spelled ▸ rfl))
  case atMost => exact Or.inl ⟨_, _, spelled, rfl⟩
  case atLeast => exact Or.inl ⟨_, _, spelled, rfl⟩
  case equal => exact Or.inl ⟨_, _, spelled, rfl⟩
  case notEqual => exact Or.inl ⟨_, _, spelled, rfl⟩
  all_goals exact Or.inr (Or.inl ⟨_, spelled, rfl⟩)

theorem wordlike_of_wordKind? {word : List Char} {kind : Kind}
    (known : wordKind? word = some kind) : Wordlike word := by
  unfold wordKind? at known
  split at known <;> cases known <;> exact ⟨_, _, rfl, by decide, List.all_eq_true.mp rfl⟩

theorem pairKind?_of_single {symbol next : Char} {kind other : Kind}
    (alone : singleKind? symbol = some kind) (paired : pairKind? symbol next = some other) :
    [symbol] ∈ [['<'], ['>'], ['!']] ∧ next = '=' := by
  unfold pairKind? at paired
  split at paired <;> first | exact ⟨by decide, rfl⟩ | cases alone | cases paired

theorem not_wordPart_of_pair {first second : Char} {kind : Kind}
    (paired : pairKind? first second = some kind) : isWordPart first = false := by
  unfold pairKind? at paired
  split at paired <;> first | decide | cases paired

theorem not_wordPart_of_single {symbol : Char} {kind : Kind}
    (alone : singleKind? symbol = some kind) : isWordPart symbol = false := by
  unfold singleKind? at alone
  split at alone <;> first | decide | cases alone

theorem not_wordPart_of_half {symbol : Char} (half : isHalf symbol = true) :
    isWordPart symbol = false := by
  simp only [isHalf, Bool.or_eq_true, decide_eq_true_eq] at half
  rcases half with (rfl | rfl) | rfl <;> decide

theorem wordPart_of_digit {character : Char} (digit : isDigit character = true) :
    isWordPart character = true := by
  simp [isWordPart, digit]

theorem wordPart_of_start {character : Char} (start : isWordStart character = true) :
    isWordPart character = true := by
  simp [isWordPart, start]

theorem not_digit_of_start {character : Char} (start : isWordStart character = true) :
    isDigit character = false := by
  by_cases digit : isDigit character = true
  · simp only [isWordStart, isDigit, Bool.or_eq_true, Bool.and_eq_true,
      decide_eq_true_eq] at start digit
    have low : character.toNat ≤ 57 := digit.2
    rcases start with (⟨small, -⟩ | ⟨capital, -⟩) | rfl
    · have high : 97 ≤ character.toNat := small
      omega
    · have high : 65 ≤ character.toNat := capital
      omega
    · exact absurd low (by decide)
  · simpa using digit

inductive Recognition (first : Char) (rest : List Char) : Except Obstacle Lexeme → Prop where
  | pair {second : Char} {behind : List Char} {kind : Kind} (split : rest = second :: behind)
      (paired : pairKind? first second = some kind) :
      Recognition first rest (.ok ⟨kind, [first, second]⟩)
  | single {kind : Kind} (unpaired : rest.head?.bind (pairKind? first) = none)
      (alone : singleKind? first = some kind) : Recognition first rest (.ok ⟨kind, [first]⟩)
  | number (digit : isDigit first = true) :
      Recognition first rest (.ok ⟨.number, first :: rest.takeWhile isDigit⟩)
  | word {kind : Kind} (start : isWordStart first = true)
      (known : wordKind? (first :: rest.takeWhile isWordPart) = some kind) :
      Recognition first rest (.ok ⟨kind, first :: rest.takeWhile isWordPart⟩)
  | half (unpaired : rest.head?.bind (pairKind? first) = none) (half : isHalf first = true) :
      Recognition first rest (.error (.half first))
  | nameless (start : isWordStart first = true)
      (strange : wordKind? (first :: rest.takeWhile isWordPart) = none) :
      Recognition first rest (.error (.word (first :: rest.takeWhile isWordPart)))
  | stray (unsingle : singleKind? first = none) (whole : isHalf first = false)
      (outside : isWordPart first = false) : Recognition first rest (.error (.stray first))

theorem recognition (first : Char) (rest : List Char) :
    Recognition first rest (lexeme first rest) := by
  unfold lexeme
  split
  · next kind paired =>
      cases rest with
      | nil => cases paired
      | cons second behind => exact .pair rfl paired
  · next unpaired =>
      split
      · next kind alone => exact .single unpaired alone
      · next unsingle =>
          split
          · next half => exact .half unpaired half
          · next whole =>
              split
              · next digit => exact .number digit
              · next digitless =>
                  split
                  · next start =>
                      dsimp only
                      split
                      · next kind known => exact .word start known
                      · next strange => exact .nameless start strange
                  · next startless =>
                      exact .stray unsingle (by simpa using whole)
                        (by simp [isWordPart, digitless, startless])

theorem lexeme_of_wordPart {first : Char} (part : isWordPart first = true) (rest : List Char) :
    lexeme first rest =
      if isDigit first then .ok ⟨.number, first :: rest.takeWhile isDigit⟩
      else if isWordStart first then
        match wordKind? (first :: rest.takeWhile isWordPart) with
        | some kind => .ok ⟨kind, first :: rest.takeWhile isWordPart⟩
        | none => .error (.word (first :: rest.takeWhile isWordPart))
      else .error (.stray first) := by
  have unpaired : rest.head?.bind (pairKind? first) = none := by
    rw [Option.bind_eq_none_iff]
    intro second _
    cases paired : pairKind? first second with
    | none => rfl
    | some kind => exact absurd part (by simp [not_wordPart_of_pair paired])
  have unsingle : singleKind? first = none := by
    cases alone : singleKind? first with
    | none => rfl
    | some kind => exact absurd part (by simp [not_wordPart_of_single alone])
  have whole : isHalf first = false := by
    by_cases half : isHalf first = true
    · exact absurd part (by simp [not_wordPart_of_half half])
    · simpa using half
  rw [lexeme, unpaired, unsingle, whole]
  rfl

theorem takeWhile_append_of_stop {keep : Char → Bool} {word behind : List Char}
    (kept : ∀ c ∈ word, keep c = true) (stop : ∀ next ∈ behind.head?, keep next = false) :
    (word ++ behind).takeWhile keep = word := by
  rw [List.takeWhile_append_of_pos kept]
  cases behind with
  | nil => simp
  | cons next rest => simp [stop next rfl]

theorem stop_behind_takeWhile (keep : Char → Bool) (rest : List Char) :
    ∀ next ∈ rest[(rest.takeWhile keep).length]?, keep next = false := by
  induction rest with
  | nil => simp
  | cons first rest ih =>
      by_cases kept : keep first = true
      · simpa [kept] using ih
      · simp [kept]

section Stands

variable {first : Char} {rest word : List Char} {kind : Kind}

theorem Kind.Written.ne_nil (written : kind.Written word) : word ≠ [] := by
  rcases written with ⟨-, filled, -⟩ | spelled
  · exact filled
  · rcases spelled_cases spelled with ⟨_, _, rfl, -⟩ | ⟨_, rfl, -⟩ | known
    · exact List.cons_ne_nil _ _
    · exact List.cons_ne_nil _ _
    · rcases wordlike_of_wordKind? known with ⟨_, _, rfl, -⟩
      exact List.cons_ne_nil _ _

theorem Stands.split (stands : Stands (first :: rest) 0 kind word) :
    ∃ tail behind, word = first :: tail ∧ rest = tail ++ behind ∧
      ∀ next ∈ behind.head?, ¬ Prolongs word next := by
  rcases stands with ⟨written, here, maximal⟩
  cases word with
  | nil => exact absurd rfl written.ne_nil
  | cons head tail =>
      simp only [WrittenAt, List.drop_zero, List.length_cons, List.take_succ_cons,
        List.cons.injEq] at here
      obtain ⟨rfl, taken⟩ := here
      refine ⟨tail, rest.drop tail.length, rfl, ?_, ?_⟩
      · have whole := List.take_append_drop tail.length rest
        rw [taken] at whole
        exact whole.symm
      · intro next behind
        apply maximal next
        simpa [List.head?_drop] using behind

theorem lexeme_of_numeral {tail behind : List Char} (numeral : Numeral (first :: tail))
    (maximal : ∀ next ∈ behind.head?, ¬ Prolongs (first :: tail) next) :
    lexeme first (tail ++ behind) = .ok ⟨.number, first :: tail⟩ := by
  have digit := numeral.2 first List.mem_cons_self
  have kept : ∀ c ∈ tail, isDigit c = true :=
    fun c member => numeral.2 c (List.mem_cons_of_mem first member)
  have stop : ∀ next ∈ behind.head?, isDigit next = false := fun next member =>
    Bool.eq_false_iff.mpr fun more => maximal next member (Or.inl ⟨numeral, more⟩)
  rw [lexeme_of_wordPart (wordPart_of_digit digit), if_pos digit,
    takeWhile_append_of_stop kept stop]

theorem lexeme_of_word {tail behind : List Char} (known : wordKind? (first :: tail) = some kind)
    (maximal : ∀ next ∈ behind.head?, ¬ Prolongs (first :: tail) next) :
    lexeme first (tail ++ behind) = .ok ⟨kind, first :: tail⟩ := by
  have wordlike := wordlike_of_wordKind? known
  rcases wordlike with ⟨_, _, same, start, kept⟩
  cases same
  have stop : ∀ next ∈ behind.head?, isWordPart next = false := fun next member =>
    Bool.eq_false_iff.mpr fun more =>
      maximal next member (Or.inr (Or.inl ⟨⟨_, _, rfl, start, kept⟩, more⟩))
  rw [lexeme_of_wordPart (wordPart_of_start start), not_digit_of_start start, if_neg (by decide),
    if_pos start, takeWhile_append_of_stop kept stop, known]

theorem lexeme_of_single {behind : List Char} (alone : singleKind? first = some kind)
    (maximal : ∀ next ∈ behind.head?, ¬ Prolongs [first] next) :
    lexeme first behind = .ok ⟨kind, [first]⟩ := by
  have unpaired : behind.head?.bind (pairKind? first) = none := by
    rw [Option.bind_eq_none_iff]
    intro next member
    cases paired : pairKind? first next with
    | none => rfl
    | some other =>
        exact absurd (Or.inr (Or.inr (pairKind?_of_single alone paired))) (maximal next member)
  rw [lexeme, unpaired, alone]

theorem lexeme_of_stands (stands : Stands (first :: rest) 0 kind word) :
    lexeme first rest = .ok ⟨kind, word⟩ := by
  obtain ⟨tail, behind, rfl, rfl, maximal⟩ := stands.split
  rcases stands.written with ⟨rfl, numeral⟩ | spelled
  · exact lexeme_of_numeral numeral maximal
  · rcases spelled_cases spelled with ⟨_, _, same, paired⟩ | ⟨_, same, alone⟩ | known
    · cases same
      simp [lexeme, paired]
    · cases same
      exact lexeme_of_single alone maximal
    · exact lexeme_of_word known maximal

theorem not_prolongs_of_symbol {tail : List Char} {next : Char}
    (symbol : isWordPart first = false)
    (apart : first :: tail ∈ [['<'], ['>'], ['!']] → next ≠ '=') :
    ¬ Prolongs (first :: tail) next := by
  rintro (⟨numeral, -⟩ | ⟨⟨_, _, same, start, -⟩, -⟩ | ⟨single, equals⟩)
  · have part := wordPart_of_digit (numeral.2 first List.mem_cons_self)
    rw [symbol] at part
    cases part
  · cases same
    rw [wordPart_of_start start] at symbol
    cases symbol
  · exact apart single equals

theorem not_single_of_wordPart {tail : List Char} (part : isWordPart first = true) :
    first :: tail ∉ [['<'], ['>'], ['!']] := by
  intro single
  simp only [List.mem_cons, List.cons.injEq, List.not_mem_nil, or_false] at single
  rcases single with ⟨rfl, -⟩ | ⟨rfl, -⟩ | ⟨rfl, -⟩ <;> cases part

theorem writtenAt_takeWhile (keep : Char → Bool) :
    WrittenAt (first :: rest) 0 (first :: rest.takeWhile keep) :=
  congrArg (first :: ·) (List.prefix_iff_eq_take.mp (List.takeWhile_prefix keep)).symm

theorem stands_number (digit : isDigit first = true) :
    Stands (first :: rest) 0 .number (first :: rest.takeWhile isDigit) := by
  refine ⟨Or.inl ⟨rfl, List.cons_ne_nil _ _, ?_⟩, writtenAt_takeWhile isDigit, ?_⟩
  · exact List.forall_mem_cons.mpr ⟨digit, List.all_eq_true.mp List.all_takeWhile⟩
  · intro next member
    have stop : isDigit next = false :=
      stop_behind_takeWhile isDigit rest next (by simpa using member)
    rintro (⟨-, more⟩ | ⟨⟨_, _, same, start, -⟩, -⟩ | ⟨single, -⟩)
    · rw [stop] at more
      cases more
    · cases same
      rw [not_digit_of_start start] at digit
      cases digit
    · exact not_single_of_wordPart (wordPart_of_digit digit) single

theorem wordlike_takeWhile (start : isWordStart first = true) (rest : List Char) :
    Wordlike (first :: rest.takeWhile isWordPart) :=
  ⟨first, _, rfl, start, List.all_eq_true.mp List.all_takeWhile⟩

theorem stands_word (start : isWordStart first = true)
    (known : wordKind? (first :: rest.takeWhile isWordPart) = some kind) :
    Stands (first :: rest) 0 kind (first :: rest.takeWhile isWordPart) := by
  refine ⟨Or.inr (spelled_of_word known), writtenAt_takeWhile isWordPart, ?_⟩
  intro next member
  have stop : isWordPart next = false :=
    stop_behind_takeWhile isWordPart rest next (by simpa using member)
  rintro (⟨numeral, -⟩ | ⟨-, more⟩ | ⟨single, -⟩)
  · have digit := numeral.2 first List.mem_cons_self
    rw [not_digit_of_start start] at digit
    cases digit
  · rw [stop] at more
    cases more
  · exact not_single_of_wordPart (wordPart_of_start start) single

theorem stands_of_lexeme {found : Lexeme} (read : lexeme first rest = .ok found) :
    Stands (first :: rest) 0 found.kind found.characters := by
  have recognized := recognition first rest
  rw [read] at recognized
  cases recognized with
  | pair split paired =>
      subst split
      refine ⟨Or.inr (spelled_of_pair paired), rfl, fun next _ => ?_⟩
      exact not_prolongs_of_symbol (not_wordPart_of_pair paired) (by simp)
  | single unpaired alone =>
      refine ⟨Or.inr (spelled_of_single alone), rfl, fun next member => ?_⟩
      refine not_prolongs_of_symbol (not_wordPart_of_single alone) fun single equals => ?_
      -- Behind one of these symbols an equals sign makes a pair.
      have behind : rest.head? = some next := by simpa [List.head?_eq_getElem?] using member
      rw [behind, equals] at unpaired
      simp only [List.mem_cons, List.cons.injEq, and_true, List.not_mem_nil, or_false] at single
      rcases single with rfl | rfl | rfl <;> cases unpaired
  | number digit => exact stands_number digit
  | word start known => exact stands_word start known

theorem not_written_of_nameless (start : isWordStart first = true)
    (nameless : wordKind? (first :: rest) = none) (kind : Kind) :
    ¬ kind.Written (first :: rest) := by
  have part := wordPart_of_start start
  rintro (⟨-, numeral⟩ | spelled)
  · have digit := numeral.2 first List.mem_cons_self
    rw [not_digit_of_start start] at digit
    cases digit
  · rcases spelled_cases spelled with ⟨_, _, same, paired⟩ | ⟨_, same, alone⟩ | known
    · cases same
      rw [not_wordPart_of_pair paired] at part
      cases part
    · cases same
      rw [not_wordPart_of_single alone] at part
      cases part
    · rw [nameless] at known
      cases known

theorem not_written_of_stray (outside : isWordPart first = false)
    (unsingle : singleKind? first = none) (kind : Kind) : ¬ kind.Written [first] := by
  rintro (⟨-, numeral⟩ | spelled)
  · have part := wordPart_of_digit (numeral.2 first List.mem_cons_self)
    rw [outside] at part
    cases part
  · rcases spelled_cases spelled with ⟨_, _, same, -⟩ | ⟨_, same, alone⟩ | known
    · cases same
    · cases same
      rw [unsingle] at alone
      cases alone
    · rcases wordlike_of_wordKind? known with ⟨_, _, same, start, -⟩
      cases same
      rw [wordPart_of_start start] at outside
      cases outside

theorem obstructs_of_lexeme {obstacle : Obstacle} (stuck : lexeme first rest = .error obstacle) :
    Obstructs (first :: rest) 0 obstacle := by
  have recognized := recognition first rest
  rw [stuck] at recognized
  cases recognized with
  | half unpaired half =>
      simp only [isHalf, Bool.or_eq_true, decide_eq_true_eq] at half
      refine .half rfl (by simpa [or_assoc] using half) fun doubled => ?_
      have behind : rest.head? = some first := by simpa [List.head?_eq_getElem?] using doubled
      rw [behind] at unpaired
      rcases half with (rfl | rfl) | rfl <;> cases unpaired
  | nameless start strange =>
      refine .word (wordlike_takeWhile start rest) (writtenAt_takeWhile isWordPart) ?_
        (not_written_of_nameless start strange)
      intro next member
      exact stop_behind_takeWhile isWordPart rest next (by simpa using member)
  | stray unsingle whole outside =>
      refine .stray rfl outside ?_ (not_written_of_stray outside unsingle)
      simpa [isHalf, and_assoc] using whole

variable {text : List Char} {place : Nat}

theorem stands_drop_iff : Stands (text.drop place) 0 kind word ↔ Stands text place kind word := by
  constructor
  · rintro ⟨written, here, maximal⟩
    exact ⟨written, here, fun next member => maximal next (by simpa using member)⟩
  · rintro ⟨written, here, maximal⟩
    exact ⟨written, here, fun next member => maximal next (by simpa using member)⟩

/-- The lexeme that stands at a place is the one that is read there. -/
theorem stands_iff (behind : text.drop place = first :: rest) :
    Stands text place kind word ↔ lexeme first rest = .ok ⟨kind, word⟩ := by
  rw [← stands_drop_iff, behind]
  exact ⟨lexeme_of_stands, fun read => stands_of_lexeme read⟩

theorem obstructs_of_stuck {obstacle : Obstacle} (behind : text.drop place = first :: rest)
    (stuck : lexeme first rest = .error obstacle) : Obstructs text place obstacle := by
  have obstructs := obstructs_of_lexeme stuck
  rw [← behind] at obstructs
  cases obstructs with
  | half here halved lone => exact .half (by simpa using here) halved (by simpa using lone)
  | word wordlike here maximal meaningless =>
      refine .word wordlike here (fun next member => ?_) meaningless
      exact maximal next (by simpa using member)
  | stray here letterless unpaired meaningless =>
      exact .stray (by simpa using here) letterless unpaired meaningless

theorem Stands.length_pos (stands : Stands text place kind word) : 0 < word.length :=
  List.length_pos_iff.mpr stands.written.ne_nil

theorem Stands.le_length (stands : Stands text place kind word) :
    place + word.length ≤ text.length := by
  have positive := stands.length_pos
  have taken := congrArg List.length stands.here
  rw [List.length_take, List.length_drop] at taken
  omega

theorem visible_of_digit {character : Char} (digit : isDigit character = true) :
    isBlank character = false := by
  simp only [isDigit, Bool.and_eq_true, decide_eq_true_eq] at digit
  have above : 48 ≤ character.toNat := digit.1
  have below : character.toNat ≤ 57 := digit.2
  simp [isBlank, Text.within, Text.blankRanges]
  omega

theorem visible_of_spelled (spelled : word ∈ kind.spellings) : ∀ c ∈ word, isBlank c = false := by
  have visible : (kind.spellings.all fun word => word.all fun c => !isBlank c) = true := by
    cases kind <;> rfl
  have checked := List.all_eq_true.mp (List.all_eq_true.mp visible word spelled)
  exact fun c member => by simpa using checked c member

theorem Stands.visible (stands : Stands text place kind word) {character : Char}
    (here : text[place]? = some character) : isBlank character = false := by
  have positive := stands.length_pos
  have begins : character ∈ word := by
    have read : word[0]? = some character := by
      rw [← here, ← stands.here, List.getElem?_take_of_lt positive, List.getElem?_drop,
        Nat.add_zero]
    exact List.mem_of_getElem? read
  rcases stands.written with ⟨-, numeral⟩ | spelled
  · exact visible_of_digit (numeral.2 character begins)
  · exact visible_of_spelled spelled character begins

theorem Stands.take (stands : Stands text place kind word) {reach : Nat}
    (inside : place + word.length ≤ reach) : Stands (text.take reach) place kind word := by
  refine ⟨stands.written, ?_, ?_⟩
  · have whole := stands.here
    rw [WrittenAt] at whole ⊢
    rw [List.drop_take, List.take_take, Nat.min_eq_left (by omega)]
    exact whole
  · intro next member
    apply stands.maximal next
    rw [List.getElem?_take] at member
    split at member
    · exact member
    · cases member

end Stands

end PluralRule.Token
