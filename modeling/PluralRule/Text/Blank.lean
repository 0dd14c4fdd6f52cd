/-!
Blank characters: they separate lexemes and are trimmed from both ends of a
formula. The table holds the white space of the bidirectional classes WS, B
and S, which is the separators of category Zs, the line and paragraph
separators, and the control characters that Unicode treats as space.
-/

namespace PluralRule.Text

def blankRanges : List (Nat × Nat) :=
  [(0x09, 0x0D), (0x1C, 0x20), (0x85, 0x85), (0xA0, 0xA0), (0x1680, 0x1680),
   (0x2000, 0x200A), (0x2028, 0x2029), (0x202F, 0x202F), (0x205F, 0x205F),
   (0x3000, 0x3000)]

def within (ranges : List (Nat × Nat)) (code : Nat) : Bool :=
  ranges.any fun range => range.1 ≤ code && code ≤ range.2

def isBlank (character : Char) : Bool := within blankRanges character.toNat

def trim (characters : List Char) : List Char :=
  ((characters.dropWhile isBlank).reverse.dropWhile isBlank).reverse

def trimmed (text : String) : String := String.ofList (trim text.toList)

theorem dropWhile_blank (characters : List Char) (blank : ∀ c ∈ characters, isBlank c = true) :
    characters.dropWhile isBlank = [] := by
  induction characters with
  | nil => rfl
  | cons first rest ih =>
      rw [List.dropWhile_cons_of_pos (blank first (by simp))]
      exact ih fun c member => blank c (List.mem_cons_of_mem first member)

theorem trim_blank (characters : List Char) (blank : ∀ c ∈ characters, isBlank c = true) :
    trim characters = [] := by
  simp [trim, dropWhile_blank characters blank]

theorem trimmed_toList (text : String) : (trimmed text).toList = trim text.toList := by
  simp [trimmed]

end PluralRule.Text
