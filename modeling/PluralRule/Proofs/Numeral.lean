import Mathlib.Data.List.TakeWhile
import PluralRule.Proofs.Literal
import PluralRule.Proofs.Scanning.Lexeme
import PluralRule.Text.Numeral

/-!
Integers written out are numerals. Nothing is taken off them: they have no white
space, plus sign, low line or fraction, and zero is the only one that begins with
a zero. Main statement: an integer is read back from its text, up to the greatest
width.
-/

namespace PluralRule.Text

theorem toDigits_head_ne_zero (number : Nat) (positive : 0 < number) :
    (Nat.toDigits 10 number).head? ≠ some '0' := by
  induction number using Nat.strongRecOn with
  | ind number ih =>
      by_cases small : number < 10
      · have apart : ∀ digit < 10, 0 < digit → Nat.digitChar digit ≠ '0' := by decide
        rw [Nat.toDigits_of_lt_base small]
        exact fun same => apart number small positive (Option.some.inj same)
      · have fewer := ih (number / 10) (by omega) (by omega)
        rw [Nat.toDigits_of_base_le (by decide) (by omega)]
        cases spelled : Nat.toDigits 10 (number / 10) with
        | nil => exact absurd spelled Nat.toDigits_ne_nil
        | cons first rest =>
            rw [spelled] at fewer
            exact fewer

theorem isDigit_of_mem_toDigits {number : Nat} {digit : Char}
    (member : digit ∈ Nat.toDigits 10 number) : isDigit digit = true := by
  obtain ⟨first, rest, spelled, digits⟩ := toDigits_eq_cons number
  rw [spelled] at member
  exact digits digit member

namespace Numeral

/-- A character that no step of reading a numeral takes off or refuses. -/
def Stays (character : Char) : Prop := character = '-' ∨ isDigit character = true

theorem Stays.not_margin {character : Char} (stays : Stays character) :
    isMargin character = false := by
  rcases stays with rfl | digit
  · decide
  · rw [isMargin, Token.visible_of_digit digit]
    rfl

section Stays

variable {characters : List Char} (stays : ∀ character ∈ characters, Stays character)

include stays

theorem dropWhile_margin_eq_self : characters.dropWhile isMargin = characters := by
  cases characters with
  | nil => rfl
  | cons first rest =>
      have solid := (stays first List.mem_cons_self).not_margin
      exact List.dropWhile_cons_of_neg (by simp [solid])

theorem withoutMargins_eq_self : withoutMargins characters = characters := by
  have reversed : ∀ character ∈ characters.reverse, Stays character :=
    fun character member => stays character (List.mem_reverse.mp member)
  rw [withoutMargins, dropWhile_margin_eq_self stays, dropWhile_margin_eq_self reversed,
    List.reverse_reverse]

theorem not_mem_of_stays {other : Char} (strange : other ≠ '-' ∧ isDigit other = false) :
    other ∉ characters := by
  intro member
  rcases stays other member with rfl | digit
  · exact strange.1 rfl
  · rw [strange.2] at digit
    cases digit

theorem withoutPlus_eq_self : withoutPlus characters = some characters := by
  have plusless : '+' ∉ characters := not_mem_of_stays stays (by decide)
  unfold withoutPlus
  split
  · exact absurd List.mem_cons_self plusless
  · exact absurd List.mem_cons_self plusless
  · rfl

theorem read_of_plain {number : Int} (opened : withoutLeadingZeros characters = some characters)
    (value : plain characters = .ok number) : read (String.ofList characters) = .ok number := by
  have whole : '.' ∉ characters := not_mem_of_stays stays (by decide)
  have ungrouped : '_' ∉ characters := not_mem_of_stays stays (by decide)
  rw [read, String.toList_ofList, withoutMargins_eq_self stays, withoutPlus_eq_self stays]
  simp only [Option.bind_some, opened, withoutEmptyFraction_eq_self characters whole,
    ungrouped_eq_self characters ungrouped, value]

end Stays

theorem opensPlain_of_digit {character : Char} (digit : isDigit character = true)
    (nonzero : character ≠ '0') : opensPlain character = true := by
  have leading := digit_pos character digit nonzero
  simp only [isDigit, Bool.and_eq_true, decide_eq_true_eq] at digit
  have above : '1' ≤ character := by
    show '1'.toNat ≤ character.toNat
    have zero : '0'.toNat + 1 = '1'.toNat := rfl
    omega
  simp [opensPlain, above, digit.2]

theorem withoutLeadingZeros_toDigits (number : Nat) :
    withoutLeadingZeros (Nat.toDigits 10 number) = some (Nat.toDigits 10 number) := by
  rcases Nat.eq_zero_or_pos number with rfl | positive
  · rfl
  · have opens := toDigits_head_ne_zero number positive
    obtain ⟨first, rest, spelled, digits⟩ := toDigits_eq_cons number
    rw [spelled] at opens ⊢
    have nonzero : first ≠ '0' := fun same => opens (congrArg some same)
    rw [withoutLeadingZeros, if_neg nonzero,
      if_pos (opensPlain_of_digit (digits first List.mem_cons_self) nonzero)]

theorem magnitude_toDigits {signWidth number : Nat}
    (narrow : signWidth + (Nat.toDigits 10 number).length ≤ greatestWidth) :
    magnitude signWidth (Nat.toDigits 10 number) = .ok number := by
  have digits : ∀ digit ∈ Nat.toDigits 10 number, isDigit digit = true :=
    fun _ => isDigit_of_mem_toDigits
  have minimal : ¬ ((Nat.toDigits 10 number).head? = some '0' ∧
      Nat.toDigits 10 number ≠ ['0']) := by
    rintro ⟨opens, longer⟩
    rcases Nat.eq_zero_or_pos number with rfl | positive
    · exact longer rfl
    · exact toDigits_head_ne_zero number positive opens
  have counted : (Nat.toDigits 10 number).takeWhile isDigit = Nat.toDigits 10 number :=
    List.takeWhile_eq_self_iff.mpr digits
  have read : natural? (Nat.toDigits 10 number) = some number :=
    (natural?_eq_some_iff _ number).mpr
      ⟨Nat.toDigits_ne_nil, digits, digitsValue_toDigits number⟩
  rw [magnitude, if_neg minimal, counted, if_neg (Nat.not_lt.mpr narrow), read]

theorem plain_toDigits {number : Nat} (narrow : (Nat.toDigits 10 number).length ≤ greatestWidth) :
    plain (Nat.toDigits 10 number) = .ok (number : Int) := by
  have value : magnitude 0 (Nat.toDigits 10 number) = .ok number :=
    magnitude_toDigits (by rwa [Nat.zero_add])
  unfold plain
  split
  · next digits spelled =>
      have sign : isDigit '-' = true := isDigit_of_mem_toDigits (spelled ▸ List.mem_cons_self)
      cases sign
  · rw [value]
    rfl

theorem read_integerText (number : Int)
    (narrow : (integerText number).length ≤ greatestWidth) :
    read (integerText number) = .ok number := by
  cases number with
  | ofNat number =>
      rw [integerText, naturalText] at narrow ⊢
      rw [String.length_ofList] at narrow
      exact read_of_plain (fun _ member => Or.inr (isDigit_of_mem_toDigits member))
        (withoutLeadingZeros_toDigits number) (plain_toDigits narrow)
  | negSucc number =>
      have spelled : integerText (.negSucc number) =
          String.ofList ('-' :: Nat.toDigits 10 (number + 1)) := by
        apply String.toList_inj.mp
        simp only [integerText, naturalText, String.toList_append, String.toList_ofList]
        rfl
      rw [spelled] at narrow ⊢
      rw [String.length_ofList, List.length_cons, Nat.add_comm] at narrow
      refine read_of_plain (List.forall_mem_cons.mpr ⟨Or.inl rfl, fun _ member =>
        Or.inr (isDigit_of_mem_toDigits member)⟩) rfl ?_
      rw [plain, magnitude_toDigits narrow]
      rfl

end Numeral

end PluralRule.Text
