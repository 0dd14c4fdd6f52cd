import PluralRule.Proofs.Grammar
import PluralRule.Proofs.Scanning.Lexeme

/-!
The lexemes that formulas are rendered with. A piece of text reads as a list
of tokens when a scan takes it for those tokens whatever stands apart behind
it, so that pieces that are put side by side do not run into each other.
Main statements: numerals, the quantity and the operators between blanks read
as one token each.
-/

namespace PluralRule

open Text (isBlank isDigit)

def Operation.kind : Operation → Token.Kind
  | .logical .conjunction => .and
  | .logical .disjunction => .or
  | .relational .equal => .equal
  | .relational .notEqual => .notEqual
  | .relational .less => .less
  | .relational .atMost => .atMost
  | .relational .greater => .greater
  | .relational .atLeast => .atLeast
  | .numeric .sum => .plus
  | .numeric .difference => .minus
  | .numeric .product => .star
  | .numeric .quotient => .slash
  | .numeric .remainder => .percent

theorem Operation.operation?_kind (operation : Operation) :
    operation.kind.operation? = some operation := by
  cases operation with
  | logical connective => cases connective <;> rfl
  | relational comparison => cases comparison <;> rfl
  | numeric arithmetic => cases arithmetic <;> rfl

namespace Token

def Scan.behind (tokens : List Token) (scan : Scan) : Scan :=
  { scan with tokens := tokens ++ scan.tokens }

/-- Nothing in front of the text can take its first character for a part of itself. -/
def Apart (text : List Char) : Prop :=
  ∀ first ∈ text.head?, isWordPart first = false

def Reads (position : Nat) (text : List Char) (tokens : List Token) : Prop :=
  ∀ rest, Apart rest →
    scan position (text ++ rest) = (scan (position + text.length) rest).behind tokens

theorem scan_blank (position : Nat) (first : Char) (rest : List Char)
    (blank : isBlank first = true) :
    scan position (first :: rest) = scan (position + 1) rest := by
  rw [scan, if_pos blank]

theorem scan_lexeme (position : Nat) (first : Char) (rest : List Char) (found : Lexeme)
    (visible : isBlank first = false) (read : lexeme first rest = .ok found) :
    scan position (first :: rest) =
      (scan (position + found.characters.length)
        (rest.drop (found.characters.length - 1))).behind [found.token position] := by
  rw [scan, if_neg (by simp [visible]), read]
  rfl

theorem apart_cons (first : Char) (rest : List Char) (outside : isWordPart first = false) :
    Apart (first :: rest) := by
  intro character same
  cases same
  exact outside

theorem Apart.maximal {rest : List Char} (apart : Apart rest) {first : Char} {word : List Char}
    (part : isWordPart first = true) : ∀ next ∈ rest.head?, ¬ Prolongs (first :: word) next := by
  intro next member
  have outside := apart next member
  rintro (⟨-, digit⟩ | ⟨-, more⟩ | ⟨single, -⟩)
  · rw [wordPart_of_digit digit] at outside
    cases outside
  · rw [more] at outside
    cases outside
  · exact not_single_of_wordPart part single

/-- In front of a blank the symbol is a lexeme of the kind. -/
def Separate (symbol : List Char) (kind : Kind) : Prop :=
  ∃ first word, symbol = first :: word ∧ isBlank first = false ∧
    ∀ rest, lexeme first (word ++ ' ' :: rest) = .ok ⟨kind, symbol⟩

namespace Reads

variable {position : Nat} {text after : List Char} {tokens others : List Token}

theorem nil : Reads position [] [] := fun _ _ => rfl

theorem append {first : Char} (reads : Reads position text tokens)
    (outside : isWordPart first = false)
    (behind : Reads (position + text.length) (first :: after) others) :
    Reads position (text ++ first :: after) (tokens ++ others) := by
  intro rest apart
  have separated := apart_cons first (after ++ rest) outside
  rw [List.append_assoc, reads (first :: after ++ rest) separated, behind rest apart]
  simp only [Scan.behind, List.append_assoc, List.length_append, Nat.add_assoc]

theorem blank (reads : Reads (position + 1) text tokens) : Reads position (' ' :: text) tokens := by
  intro rest apart
  rw [List.cons_append, scan_blank position ' ' (text ++ rest) (by decide), reads rest apart,
    List.length_cons, Nat.add_assoc, Nat.add_comm 1]

theorem lexeme {first : Char} {word : List Char} {kind : Kind} (visible : isBlank first = false)
    (read : ∀ rest, Apart rest →
      Token.lexeme first (word ++ (text ++ rest)) = .ok ⟨kind, first :: word⟩)
    (reads : Reads (position + (first :: word).length) text tokens) :
    Reads position (first :: word ++ text)
      (⟨kind, String.ofList (first :: word), position⟩ :: tokens) := by
  intro rest apart
  have width : (first :: word ++ text).length = (first :: word).length + text.length :=
    List.length_append
  have taken := scan_lexeme position first _ _ visible (read rest apart)
  simp only [List.length_cons, Nat.add_sub_cancel, List.drop_left] at taken
  rw [List.length_cons] at reads
  rw [width, ← Nat.add_assoc, List.append_assoc, List.cons_append, taken, reads rest apart]
  rfl

theorem single {first : Char} {kind : Kind} (visible : isBlank first = false)
    (alone : singleKind? first = some kind)
    (unpaired : ∀ rest, Apart rest → (text ++ rest).head?.bind (pairKind? first) = none)
    (reads : Reads (position + 1) text tokens) :
    Reads position (first :: text) (⟨kind, String.ofList [first], position⟩ :: tokens) := by
  have read : ∀ rest, Apart rest →
      Token.lexeme first ([] ++ (text ++ rest)) = .ok ⟨kind, [first]⟩ := by
    intro rest apart
    rw [List.nil_append, Token.lexeme, unpaired rest apart, alone]
  exact .lexeme visible read reads

theorem between {symbol : List Char} {kind : Kind} (separate : Separate symbol kind)
    (left : Reads position text tokens)
    (right : Reads (position + text.length + 1 + symbol.length + 1) after others) :
    Reads position (text ++ ' ' :: (symbol ++ ' ' :: after))
      (tokens ++ ⟨kind, String.ofList symbol, (position + text.length + 1 : Nat)⟩ :: others) := by
  rcases separate with ⟨first, word, rfl, visible, read⟩
  exact left.append (by decide) (.blank (.lexeme visible (fun rest _ => read _) (.blank right)))

end Reads

theorem reads_natural (position number : Nat) :
    Reads position (Nat.toDigits 10 number) [⟨.number, Text.naturalText number, position⟩] := by
  rw [Text.naturalText]
  rcases Text.toDigits_eq_cons number with ⟨first, word, spelled, digits⟩
  rw [spelled]
  have digit := digits first List.mem_cons_self
  have visible := visible_of_digit digit
  have part := wordPart_of_digit digit
  have numeral : Numeral (first :: word) := ⟨List.cons_ne_nil first word, digits⟩
  have read : Reads position (first :: word ++ [])
      [⟨.number, String.ofList (first :: word), position⟩] :=
    .lexeme visible (fun rest apart => lexeme_of_numeral numeral (apart.maximal part)) .nil
  rwa [List.append_nil] at read

theorem reads_quantity (position : Nat) : Reads position ['n'] [⟨.quantity, "n", position⟩] := by
  have read : Reads position (['n'] ++ []) [⟨.quantity, String.ofList ['n'], position⟩] :=
    .lexeme (by decide) (fun _ apart => lexeme_of_word rfl (apart.maximal (by decide))) .nil
  exact read

end Token

theorem Operation.separate (operation : Operation) :
    Token.Separate operation.symbol.toList operation.kind := by
  cases operation with
  | logical connective =>
      cases connective <;> exact ⟨_, _, rfl, rfl, fun rest => rfl⟩
  | relational comparison =>
      cases comparison <;> exact ⟨_, _, rfl, rfl, fun rest => rfl⟩
  | numeric arithmetic =>
      cases arithmetic <;> exact ⟨_, _, rfl, rfl, fun rest => rfl⟩

theorem Token.separate_question : Token.Separate ['?'] .question :=
  ⟨'?', [], rfl, by decide, fun _ => rfl⟩

theorem Token.separate_colon : Token.Separate [':'] .colon :=
  ⟨':', [], rfl, by decide, fun _ => rfl⟩

end PluralRule
