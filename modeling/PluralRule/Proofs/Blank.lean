import Mathlib.Data.List.DropRight
import PluralRule.Text.Blank

/-!
Trimming as a cut. What is cut off at the two ends of a text is blank, what is left
neither begins nor ends with a blank, and blanks put back around it are cut off again.
-/

namespace PluralRule.Text

/-- The text is what is left of the formula when all blanks at both ends are cut off. -/
structure Trims (formula text : String) : Prop where
  cut : ∃ front rear, formula = front ++ text ++ rear ∧
    (∀ character ∈ front.toList, isBlank character = true) ∧
    ∀ character ∈ rear.toList, isBlank character = true
  opens : ∀ character ∈ text.toList.head?, isBlank character = false
  ends : ∀ character ∈ text.toList.getLast?, isBlank character = false

theorem trim_split (characters : List Char) :
    ∃ rear, (∀ character ∈ rear, isBlank character = true) ∧
      characters = characters.takeWhile isBlank ++ (trim characters ++ rear) := by
  refine ⟨(characters.dropWhile isBlank).rtakeWhile isBlank,
    fun character => List.mem_rtakeWhile_imp, ?_⟩
  have behind : trim characters ++ (characters.dropWhile isBlank).rtakeWhile isBlank =
      characters.dropWhile isBlank := List.rdropWhile_append_rtakeWhile
  rw [behind, List.takeWhile_append_dropWhile]

theorem trim_append {front rear : List Char}
    (before : ∀ character ∈ front, isBlank character = true)
    (behind : ∀ character ∈ rear, isBlank character = true) (characters : List Char) :
    trim (front ++ (characters ++ rear)) = trim characters := by
  rw [trim, List.dropWhile_append_of_pos before, List.dropWhile_append]
  split
  · next empty =>
      rw [dropWhile_blank rear behind, trim, List.isEmpty_iff.mp empty]
  · have reversed : ∀ character ∈ rear.reverse, isBlank character = true :=
      fun character member => behind character (List.mem_reverse.mp member)
    rw [List.reverse_append, List.dropWhile_append_of_pos reversed]
    rfl

theorem trim_trim (characters : List Char) : trim (trim characters) = trim characters := by
  obtain ⟨rear, behind, split⟩ := trim_split characters
  have before : ∀ character ∈ characters.takeWhile isBlank, isBlank character = true :=
    fun character => List.mem_takeWhile_imp
  have whole := trim_append before behind (trim characters)
  rw [← split] at whole
  exact whole.symm

theorem visible_head_dropWhile (characters : List Char) :
    ∀ character ∈ (characters.dropWhile isBlank).head?, isBlank character = false := by
  intro character head
  have visible := List.head?_dropWhile_not isBlank characters
  rw [Option.mem_def.mp head] at visible
  exact visible

theorem visible_head_trim (characters : List Char) :
    ∀ character ∈ (trim characters).head?, isBlank character = false := by
  intro character head
  obtain ⟨rear, split⟩ : trim characters <+: characters.dropWhile isBlank :=
    List.rdropWhile_prefix isBlank _
  apply visible_head_dropWhile characters
  rw [← split, List.head?_append, Option.mem_def.mp head]
  rfl

theorem visible_last_trim (characters : List Char) :
    ∀ character ∈ (trim characters).getLast?, isBlank character = false := by
  rw [trim, List.getLast?_reverse]
  exact visible_head_dropWhile _

theorem trim_ne_nil {characters : List Char} {character : Char} (member : character ∈ characters)
    (visible : isBlank character = false) : trim characters ≠ [] := by
  intro empty
  obtain ⟨rear, behind, split⟩ := trim_split characters
  rw [empty, List.nil_append] at split
  rw [split] at member
  have blank : isBlank character = true := by
    rcases List.mem_append.mp member with before | after
    · exact List.mem_takeWhile_imp before
    · exact behind character after
  rw [visible] at blank
  cases blank

end PluralRule.Text
