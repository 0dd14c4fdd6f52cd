import PluralRule.Text.Blank
import PluralRule.Text.Decimal

/-!
Numerals: integers as people write them into settings. A numeral may have
white space around it, a plus sign, zeros in front, low lines between groups
of digits and a fraction of zeros. Reading takes these away in that order;
what is left has to be plain, which is an optional minus sign and digits that
start with zero only for zero itself. A plain numeral has a greatest width.
-/

namespace PluralRule.Text.Numeral

inductive Issue where
  | malformed
  | oversized
  deriving DecidableEq, Repr

def greatestWidth : Nat := 4300

/-- White space around a numeral. Unlike the blanks of a formula it leaves out
the four information separators. -/
def isMargin (character : Char) : Bool :=
  isBlank character && !(0x1C ≤ character.toNat && character.toNat ≤ 0x1F)

def withoutMargins (characters : List Char) : List Char :=
  ((characters.dropWhile isMargin).reverse.dropWhile isMargin).reverse

/-- A plus sign says nothing, and no minus sign follows it. -/
def withoutPlus : List Char → Option (List Char)
  | '+' :: '-' :: _ => none
  | '+' :: rest => some rest
  | characters => some characters

def opensPlain (character : Char) : Bool :=
  character = '-' || ('1' ≤ character && character ≤ '9')

/-- What follows a zero and the further zeros and low lines behind it. The last
of these, `previous`, stays where a point or nothing follows. -/
def afterZeros (previous : Char) : List Char → Option (List Char)
  | [] => some [previous]
  | next :: rest =>
      if next = '0' ∨ next = '_' then afterZeros next rest
      else if next = '.' then some (previous :: next :: rest)
      else if opensPlain next then some (next :: rest)
      else none

def withoutLeadingZeros : List Char → Option (List Char)
  | [] => none
  | first :: rest =>
      if first = '0' then afterZeros first rest
      else if opensPlain first then some (first :: rest)
      else none

def withoutEmptyFraction (characters : List Char) : List Char :=
  let fraction := (characters.dropWhile (· ≠ '.')).drop 1
  if fraction ≠ [] ∧ fraction.all (· = '0') then characters.takeWhile (· ≠ '.')
  else characters

/-- Every low line stands between two digits; `afterDigit` says whether a digit
comes before the first character. -/
def isGrouped (afterDigit : Bool) : List Char → Bool
  | [] => true
  | '_' :: next :: rest => afterDigit && isDigit next && isGrouped true rest
  | first :: rest => first != '_' && isGrouped (isDigit first) rest

def ungrouped (characters : List Char) : List Char :=
  if isGrouped false characters then characters.filter (· ≠ '_') else characters

def magnitude (signWidth : Nat) (digits : List Char) : Except Issue Nat :=
  if digits.head? = some '0' ∧ digits ≠ ['0'] then .error .malformed
  else if greatestWidth < signWidth + (digits.takeWhile isDigit).length then .error .oversized
  else
    match natural? digits with
    | some number => .ok number
    | none => .error .malformed

def plain : List Char → Except Issue Int
  | '-' :: digits => (magnitude 1 digits).map fun number => -(number : Int)
  | digits => (magnitude 0 digits).map fun number => (number : Int)

def read (text : String) : Except Issue Int :=
  match (withoutPlus (withoutMargins text.toList)).bind withoutLeadingZeros with
  | some characters => plain (ungrouped (withoutEmptyFraction characters))
  | none => .error .malformed

theorem ungrouped_eq_self (characters : List Char) (plain : '_' ∉ characters) :
    ungrouped characters = characters := by
  unfold ungrouped
  split
  · refine List.filter_eq_self.mpr fun c member => ?_
    have other : c ≠ '_' := fun same => plain (same ▸ member)
    exact decide_eq_true other
  · rfl

theorem withoutEmptyFraction_eq_self (characters : List Char) (whole : '.' ∉ characters) :
    withoutEmptyFraction characters = characters := by
  have nothing : characters.dropWhile (· ≠ '.') = [] := by
    induction characters with
    | nil => rfl
    | cons first rest ih =>
        rw [List.dropWhile_cons_of_pos]
        · exact ih fun member => whole (List.mem_cons_of_mem first member)
        · exact decide_eq_true fun same => whole (same ▸ List.mem_cons_self)
  unfold withoutEmptyFraction
  rw [nothing]
  exact if_neg fun present => present.1 rfl

end PluralRule.Text.Numeral
