import PluralRule.Text.Blank
import PluralRule.Text.Decimal
import PluralRule.Token

/-!
Scanning: from characters to tokens. At every place the longest lexeme is
taken, blanks are skipped, and the scan stops at the first place where no
lexeme begins. Main statements: a lexeme is what stands at the head of the
text, and a scan without an obstacle passes over the whole text.
-/

namespace PluralRule.Token

inductive Obstacle where
  /-- A character that only means something when it is doubled. -/
  | half (character : Char)
  | stray (character : Char)
  | word (characters : List Char)
  deriving DecidableEq, Repr

structure Lexeme where
  kind : Kind
  characters : List Char
  deriving DecidableEq, Repr

def pairKind? : Char → Char → Option Kind
  | '=', '=' => some .equal
  | '!', '=' => some .notEqual
  | '<', '=' => some .atMost
  | '>', '=' => some .atLeast
  | '&', '&' => some .and
  | '|', '|' => some .or
  | _, _ => none

def singleKind? : Char → Option Kind
  | '(' => some .opening
  | ')' => some .closing
  | '+' => some .plus
  | '-' => some .minus
  | '*' => some .star
  | '/' => some .slash
  | '%' => some .percent
  | '?' => some .question
  | ':' => some .colon
  | '<' => some .less
  | '>' => some .greater
  | '!' => some .not
  | _ => none

/-- The quantity is the only name; three operators are also spelled as words. -/
def wordKind? : List Char → Option Kind
  | ['n'] => some .quantity
  | ['a', 'n', 'd'] => some .and
  | ['o', 'r'] => some .or
  | ['n', 'o', 't'] => some .not
  | _ => none

def isHalf (character : Char) : Bool :=
  character = '=' || character = '&' || character = '|'

def isWordStart (character : Char) : Bool :=
  ('a' ≤ character && character ≤ 'z') || ('A' ≤ character && character ≤ 'Z') ||
    character = '_'

def isWordPart (character : Char) : Bool := isWordStart character || Text.isDigit character

def lexeme (first : Char) (rest : List Char) : Except Obstacle Lexeme :=
  match rest.head?.bind (pairKind? first) with
  | some kind => .ok ⟨kind, first :: rest.take 1⟩
  | none =>
      match singleKind? first with
      | some kind => .ok ⟨kind, [first]⟩
      | none =>
          if isHalf first then .error (.half first)
          else if Text.isDigit first then .ok ⟨.number, first :: rest.takeWhile Text.isDigit⟩
          else if isWordStart first then
            let word := first :: rest.takeWhile isWordPart
            match wordKind? word with
            | some kind => .ok ⟨kind, word⟩
            | none => .error (.word word)
          else .error (.stray first)

/-- The number of characters that a scan passes over when it stops at an obstacle. -/
def Obstacle.width : Obstacle → Nat
  | .half _ => 1
  | .stray _ => 1
  | .word characters => characters.length

def Lexeme.token (lexeme : Lexeme) (position : Nat) : Token :=
  ⟨lexeme.kind, String.ofList lexeme.characters, position⟩

/-- The tokens up to the place where scanning stopped, and the obstacle that
stopped it with its own place; no obstacle means that the text was used up. -/
structure Scan where
  tokens : List Token
  stop : Nat
  obstacle : Option (Nat × Obstacle)
  deriving DecidableEq, Repr

def scan (position : Nat) : List Char → Scan
  | [] => ⟨[], position, none⟩
  | first :: rest =>
      if Text.isBlank first then scan (position + 1) rest
      else
        match lexeme first rest with
        | .ok found =>
            let width := found.characters.length
            let tail := scan (position + width) (rest.drop (width - 1))
            { tail with tokens := found.token position :: tail.tokens }
        | .error obstacle => ⟨[], position + obstacle.width, some (position, obstacle)⟩
termination_by characters => characters.length
decreasing_by
  · simp
  · simp only [List.length_drop, List.length_cons]
    omega

theorem takeWhile_append_drop (keep : Char → Bool) (characters : List Char) :
    characters.takeWhile keep ++ characters.drop (characters.takeWhile keep).length =
      characters := by
  induction characters with
  | nil => rfl
  | cons first rest ih =>
      by_cases kept : keep first = true
      · simp [kept, ih]
      · simp [kept]

theorem lexeme_split (first : Char) (rest : List Char) (found : Lexeme)
    (read : lexeme first rest = .ok found) :
    found.characters ++ rest.drop (found.characters.length - 1) = first :: rest := by
  unfold lexeme at read
  split at read
  · cases read
    cases rest <;> simp
  · split at read
    · cases read
      simp
    · split at read
      · cases read
      · split at read
        · cases read
          simp [takeWhile_append_drop]
        · split at read
          · dsimp only at read
            split at read
            · cases read
              simp [takeWhile_append_drop]
            · cases read
          · cases read

theorem lexeme_obstacle_width (first : Char) (rest : List Char) (obstacle : Obstacle)
    (stuck : lexeme first rest = .error obstacle) :
    1 ≤ obstacle.width ∧ obstacle.width ≤ (first :: rest).length := by
  have shorter : (rest.takeWhile isWordPart).length ≤ rest.length :=
    (List.takeWhile_prefix isWordPart).length_le
  unfold lexeme at stuck
  split at stuck
  · cases stuck
  · split at stuck
    · cases stuck
    · split at stuck
      · cases stuck
        simp [Obstacle.width]
      · split at stuck
        · cases stuck
        · split at stuck
          · dsimp only at stuck
            split at stuck
            · cases stuck
            · cases stuck
              simp only [Obstacle.width, List.length_cons]
              omega
          · cases stuck
            simp [Obstacle.width]

theorem lexeme_length (first : Char) (rest : List Char) (found : Lexeme)
    (read : lexeme first rest = .ok found) :
    found.characters.length + (rest.drop (found.characters.length - 1)).length =
      (first :: rest).length := by
  have whole := congrArg List.length (lexeme_split first rest found read)
  rwa [List.length_append] at whole

theorem scan_stop_bounds (position : Nat) (characters : List Char) :
    position ≤ (scan position characters).stop ∧
      (scan position characters).stop ≤ position + characters.length := by
  fun_induction scan position characters with
  | case1 position => simp
  | case2 position first rest blank ih =>
      simp only [List.length_cons]
      omega
  | case3 position first rest blank found read width tail ih =>
      have whole := lexeme_length first rest found read
      simp only [width, tail, List.length_cons] at whole ih ⊢
      omega
  | case4 position first rest blank obstacle stuck =>
      have bounds := lexeme_obstacle_width first rest obstacle stuck
      simp only [List.length_cons] at bounds ⊢
      omega

theorem scan_stop_of_clear (position : Nat) (characters : List Char)
    (clear : (scan position characters).obstacle = none) :
    (scan position characters).stop = position + characters.length := by
  fun_induction scan position characters with
  | case1 position => simp
  | case2 position first rest blank ih =>
      rw [ih clear]
      simp only [List.length_cons]
      omega
  | case3 position first rest blank found read width tail ih =>
      have whole := lexeme_length first rest found read
      have reached := ih clear
      simp only [width, tail, List.length_cons] at whole reached ⊢
      omega
  | case4 position first rest blank obstacle stuck => cases clear

end PluralRule.Token
