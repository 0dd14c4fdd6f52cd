import PluralRule.Proofs.Reading.Agreement
import PluralRule.Proofs.Scanning.Seam
import PluralRule.Proofs.Source

/-!
Layout. How much space stands between the tokens of a source, whether an operator
is spelled as a symbol or as a word and how many zeros are in front of a number
is all the same to the reader. Main statement: sources with alike tokens are read
as the same formula or fail at the same token in the same way, and a source that
is only laid out in another way has alike tokens.
-/

namespace PluralRule

open Text (digitsValue isBlank isDigit natural?)

namespace Token

/-- The tokens have one kind, and as numbers one value, wherever and however they are written. -/
structure Alike (left right : Token) : Prop where
  kind : left.kind = right.kind
  value : left.kind = .number → digitsValue left.text.toList = digitsValue right.text.toList

inductive Alias : String → String → Prop where
  | and : Alias "&&" "and"
  | or : Alias "||" "or"
  | not : Alias "!" "not"

inductive Respelled (token : Token) : List Char → Prop where
  | word {word : String} (spelled : Alias token.text word) :
      Respelled token (' ' :: word.toList ++ [' '])
  | zeros (count : Nat) (number : token.kind = .number) :
      Respelled token (List.replicate count '0' ++ token.text.toList)

/-- The text with blanks put in at a place that is not inside of a token, or with
one of its tokens written in another way. -/
inductive Relaid (text : List Char) (tokens : List Token) : List Char → Prop where
  | blanks (place : Nat) (inside : place ≤ text.length)
      (between : ∀ token ∈ tokens, ¬ (token.position < place ∧ place < token.stop))
      {blanks : List Char} (blank : ∀ character ∈ blanks, isBlank character = true) :
      Relaid text tokens (text.take place ++ (blanks ++ text.drop place))
  | token {token : Token} (member : token ∈ tokens) (place : Nat) (placed : token.position = place)
      {fresh : List Char} (respelled : Respelled token fresh) :
      Relaid text tokens
        (text.take place ++ (fresh ++ text.drop (place + token.text.toList.length)))

namespace Alike

variable {left right : List Token}

theorem refl (token : Token) : Alike token token := ⟨rfl, fun _ => rfl⟩

theorem list_refl (tokens : List Token) : List.Forall₂ Alike tokens tokens :=
  List.forall₂_same.mpr fun token _ => refl token

theorem list_mapPosition (tokens : List Token) (first second : Int → Int) :
    List.Forall₂ Alike (tokens.map (Token.mapPosition first))
      (tokens.map (Token.mapPosition second)) := by
  rw [List.forall₂_map_left_iff, List.forall₂_map_right_iff]
  exact List.forall₂_same.mpr fun token _ => ⟨rfl, fun _ => rfl⟩

/-- Only the value of a digit text decides about its literal. -/
theorem interchangeable {token other : Token} (alike : Alike token other)
    (plain : token.kind = .number → (natural? token.text.toList).isSome)
    (likewise : other.kind = .number → (natural? other.text.toList).isSome) :
    Interchangeable token other := by
  refine ⟨alike.kind, fun number => ?_⟩
  obtain ⟨value, read⟩ := Option.isSome_iff_exists.mp (plain number)
  obtain ⟨again, reread⟩ := Option.isSome_iff_exists.mp (likewise (alike.kind ▸ number))
  have valued := ((Text.natural?_eq_some_iff _ _).mp read).2.2
  have revalued := ((Text.natural?_eq_some_iff _ _).mp reread).2.2
  obtain rfl : value = again := by rw [← valued, ← revalued, alike.value number]
  rw [Formula.literalValue?_of_natural? _ _ read, Formula.literalValue?_of_natural? _ _ reread]

theorem list_interchangeable (alike : List.Forall₂ Alike left right)
    (plain : ∀ token ∈ left, token.kind = .number → (natural? token.text.toList).isSome)
    (likewise : ∀ token ∈ right, token.kind = .number → (natural? token.text.toList).isSome) :
    List.Forall₂ Interchangeable left right := by
  induction alike with
  | nil => exact .nil
  | cons same rest ih =>
      obtain ⟨first, others⟩ := List.forall_mem_cons.mp plain
      obtain ⟨second, further⟩ := List.forall_mem_cons.mp likewise
      exact .cons (same.interchangeable first second) (ih others further)

end Alike

section Written

variable {kind : Kind} {word : List Char}

theorem prolongs_numeral_iff (numeral : Numeral word) {next : Char} :
    Prolongs word next ↔ isDigit next = true := by
  constructor
  · rintro (⟨-, digit⟩ | ⟨⟨first, rest, rfl, start, -⟩, -⟩ | ⟨symbol, -⟩)
    · exact digit
    · have digit := numeral.2 first List.mem_cons_self
      rw [not_digit_of_start start] at digit
      cases digit
    · simp only [List.mem_cons, List.not_mem_nil, or_false] at symbol
      rcases symbol with rfl | rfl | rfl <;>
        exact absurd (numeral.2 _ List.mem_cons_self) (by decide)
  · exact fun digit => Or.inl ⟨numeral, digit⟩

theorem digitsValue_zeros (count : Nat) (digits : List Char) :
    digitsValue (List.replicate count '0' ++ digits) = digitsValue digits := by
  induction count with
  | zero => rfl
  | succ count ih =>
      rw [← ih, ← digitsValue_dropWhile_zero, List.replicate_succ, List.cons_append,
        List.dropWhile_cons_of_pos (by decide), digitsValue_dropWhile_zero]

theorem Alias.not_numeral {symbol word : String} (spelled : Alias symbol word) :
    ¬ Numeral symbol.toList := by
  intro numeral
  cases spelled with
  | and => exact absurd (numeral.2 '&' List.mem_cons_self) (by decide)
  | or => exact absurd (numeral.2 '|' List.mem_cons_self) (by decide)
  | not => exact absurd (numeral.2 '!' List.mem_cons_self) (by decide)

theorem Kind.Written.numeral (written : kind.Written word) (number : kind = .number) :
    Numeral word := by
  rcases written with ⟨-, numeral⟩ | listed
  · exact numeral
  · rw [number] at listed
    cases listed

variable {token : Token}

theorem Alias.exchanges {spelling : String} (spelled : Alias token.text spelling)
    (written : token.kind.Written token.text.toList) :
    Exchanges token (' ' :: spelling.toList ++ [' ']) ⟨token.kind, spelling, 1⟩ := by
  have found : token.kind.Written spelling.toList := by
    rcases written with ⟨-, numeral⟩ | listed
    · exact absurd numeral spelled.not_numeral
    · revert listed
      generalize token.kind = kind
      generalize token.text = symbol at spelled
      cases spelled <;> cases kind <;> simp [Kind.Written, Kind.spellings]
  have spaced := Decomposes.spaced found
  rw [String.ofList_toList] at spaced
  refine ⟨spaced, fun other next head prolongs => ?_, fun ended => ?_⟩
  · obtain rfl := Option.some.inj head
    exact absurd prolongs (not_prolongs_blank (by decide))
  · -- The blank behind the word is the last character of the text.
    simp only [stop, List.length_cons, List.length_append, String.length_toList,
      List.length_nil] at ended
    omega

theorem numeral_zeros (numeral : Numeral word) (count : Nat) :
    Numeral (List.replicate count '0' ++ word) := by
  refine ⟨List.append_ne_nil_of_right_ne_nil _ numeral.1, fun c member => ?_⟩
  rcases List.mem_append.mp member with zero | digit
  · rw [List.eq_of_mem_replicate zero]
    decide
  · exact numeral.2 c digit

theorem exchanges_zeros (numeral : Numeral token.text.toList) (count : Nat) :
    Exchanges token (List.replicate count '0' ++ token.text.toList)
      ⟨.number, String.ofList (List.replicate count '0' ++ token.text.toList), 0⟩ := by
  have longer := numeral_zeros numeral count
  refine ⟨.single (Or.inl ⟨rfl, longer⟩), fun other next head prolongs => ?_,
    fun _ next prolongs => ?_⟩
  · obtain ⟨first, rest, split⟩ := List.exists_cons_of_ne_nil numeral.1
    have digit : isDigit first = true := numeral.2 first (split ▸ List.mem_cons_self)
    exact ⟨first, by rw [split]; rfl,
      prolongs.of_digit (longer.2 next (List.mem_of_mem_head? head)) digit⟩
  · rw [String.toList_ofList, prolongs_numeral_iff longer] at prolongs
    exact (prolongs_numeral_iff numeral).mpr prolongs

theorem Respelled.exchanges {fresh : List Char} (respelled : Respelled token fresh)
    (written : token.kind.Written token.text.toList) :
    ∃ other, Exchanges token fresh other ∧ Alike token other := by
  cases respelled with
  | word spelled =>
      exact ⟨_, spelled.exchanges written, rfl,
        fun number => absurd (written.numeral number) spelled.not_numeral⟩
  | zeros count number =>
      refine ⟨_, exchanges_zeros (written.numeral number) count, number, fun _ => ?_⟩
      rw [String.toList_ofList, digitsValue_zeros]

end Written

namespace Decomposes

variable {text fresh : List Char} {lexemes : List Token} {token : Token} {place : Nat}

/-- Blanks between the tokens move the ones behind them and nothing else. -/
theorem insert_blanks (whole : Decomposes text 0 lexemes) (inside : place ≤ text.length)
    (between : ∀ token ∈ lexemes, ¬ (token.position < place ∧ place < token.stop))
    {blanks : List Char} (blank : ∀ character ∈ blanks, isBlank character = true) :
    ∃ others, Decomposes (text.take place ++ (blanks ++ text.drop place)) 0 others ∧
      List.Forall₂ Alike lexemes others := by
  obtain ⟨first, second, rfl, front, rear⟩ := exists_parts whole.ordered place between
  have length : (text.take place).length = place := List.length_take_of_le inside
  rw [← List.take_append_drop place text] at whole
  obtain ⟨later, rfl, left, right, parted⟩ :=
    whole.cut (by simpa only [length] using front) (by simpa only [length] using rear)
  have moved := (of_blank blank).join right (by simp [Parted])
  have apart : Parted first (text.take place) (blanks ++ text.drop place) := by
    intro token member ended next head
    cases blanks with
    | nil => exact parted token member ended next head
    | cons space spaces =>
        obtain rfl := Option.some.inj head
        exact not_prolongs_blank (blank space List.mem_cons_self)
  refine ⟨_, left.join moved apart, List.rel_append (Alike.list_refl first) ?_⟩
  rw [List.nil_append, map_mapPosition_add]
  exact Alike.list_mapPosition later _ _

theorem respell (whole : Decomposes text 0 lexemes) (member : token ∈ lexemes)
    (placed : token.position = place) (respelled : Respelled token fresh) :
    ∃ others, Decomposes
        (text.take place ++ (fresh ++ text.drop (place + token.text.toList.length))) 0 others ∧
      List.Forall₂ Alike lexemes others := by
  obtain ⟨its, itsPlaced, -, stands⟩ := whole.lexemes token member
  obtain rfl : its = place := by omega
  obtain ⟨front, rear, rfl⟩ := List.append_of_mem member
  have inside := stands.le_length
  have length : (text.take its).length = its := List.length_take_of_le (by omega)
  have split : text =
      text.take its ++ (token.text.toList ++ text.drop (its + token.text.toList.length)) := by
    have here : (text.drop its).take token.text.toList.length = token.text.toList := stands.here
    rw [← List.drop_drop]
    calc
      text = text.take its ++ text.drop its := (List.take_append_drop its text).symm
      _ = text.take its ++ ((text.drop its).take token.text.toList.length ++
            (text.drop its).drop token.text.toList.length) :=
        congrArg (text.take its ++ ·) (List.take_append_drop _ _).symm
      _ = _ := by rw [here]
  obtain ⟨other, exchanges, alike⟩ := respelled.exchanges stands.written
  rw [split] at whole
  obtain ⟨later, rfl, exchanged⟩ := whole.exchange (by rw [length, placed]) exchanges
  refine ⟨_, exchanged, List.rel_append (Alike.list_refl front) (.cons ?_ ?_)⟩
  · exact ⟨alike.kind, alike.value⟩
  · exact Alike.list_mapPosition later _ _

end Decomposes

section Source

variable {limits : Limits} {source : String} {tokens : List Token}

theorem short_of_ofSource (scanned : Token.ofSource limits source = .ok tokens) :
    (source.length : Int) ≤ limits.maxLength := by
  by_contra long
  rw [ofSource_of_long (Int.not_le.mp long)] at scanned
  cases scanned

theorem natural?_of_ofSource (scanned : Token.ofSource limits source = .ok tokens) :
    ∀ token ∈ tokens, token.kind = .number → (natural? token.text.toList).isSome := by
  obtain ⟨lexemes, rfl, decomposes⟩ :=
    (ofSource_eq_ok_iff (short_of_ofSource scanned) tokens).mp scanned
  refine List.forall_mem_append.mpr ⟨fun token member => (decomposes.plain token member).2, ?_⟩
  rintro token member number
  obtain rfl := List.mem_singleton.mp member
  cases number

theorem ordered_of_ofSource (scanned : Token.ofSource limits source = .ok tokens) :
    tokens.Pairwise fun earlier later => earlier.position < later.position := by
  obtain ⟨lexemes, rfl, decomposes⟩ :=
    (ofSource_eq_ok_iff (short_of_ofSource scanned) tokens).mp scanned
  refine List.pairwise_append.mpr ⟨decomposes.ordered.imp And.left, List.pairwise_singleton _ _,
    fun token member other finish => ?_⟩
  obtain rfl := List.mem_singleton.mp finish
  obtain ⟨place, placed, -, stands⟩ := decomposes.lexemes token member
  have positive := stands.length_pos
  have inside := stands.le_length
  simp only [String.length_toList] at positive inside
  simp only [Token.finish, placed]
  omega

theorem ofSource_relaid (scanned : Token.ofSource limits source = .ok tokens) {other : String}
    (relaid : Relaid source.toList tokens other.toList)
    (short : (other.length : Int) ≤ limits.maxLength) :
    ∃ others, Token.ofSource limits other = .ok others ∧ List.Forall₂ Alike tokens others := by
  obtain ⟨lexemes, rfl, whole⟩ :=
    (ofSource_eq_ok_iff (short_of_ofSource scanned) tokens).mp scanned
  have exists_others : ∃ others, Decomposes other.toList 0 others ∧
      List.Forall₂ Alike lexemes others := by
    generalize other.toList = text at relaid
    cases relaid with
    | blanks place inside between blank =>
        exact whole.insert_blanks inside (List.forall_mem_append.mp between).1 blank
    | token member place placed respelled =>
        rcases List.mem_append.mp member with lexeme | finish
        · exact whole.respell lexeme placed respelled
        · -- The end has no text and is no number, so there is no other way to write it.
          obtain rfl := List.mem_singleton.mp finish
          rcases respelled with spelled | ⟨count, number⟩
          · generalize written : (Token.finish source.length).text = symbol at spelled
            cases spelled <;> simp [Token.finish] at written
          · cases number
  obtain ⟨others, decomposes, alike⟩ := exists_others
  refine ⟨_, ofSource_of_decomposes short decomposes, List.rel_append alike (.cons ?_ .nil)⟩
  exact ⟨rfl, by rintro ⟨⟩⟩

end Source

end Token

namespace Formula

open Token (Alike Relaid)

/-- Sources with alike tokens agree in what is read from them, and sources that
only differ in layout have alike tokens. The places tell which token is blamed. -/
theorem ofSource_layout {limits : Limits} {source : String} {tokens : List Token}
    (scanned : Token.ofSource limits source = .ok tokens) :
    (∀ other others, Token.ofSource limits other = .ok others →
        List.Forall₂ Alike tokens others →
          Agree tokens others (ofSource limits source) (ofSource limits other)) ∧
      (∀ other : String, Relaid source.toList tokens other.toList →
        (other.length : Int) ≤ limits.maxLength →
          ∃ others, Token.ofSource limits other = .ok others ∧
            List.Forall₂ Alike tokens others) ∧
      tokens.Pairwise fun earlier later => earlier.position < later.position := by
  refine ⟨fun other others rescanned alike => ?_,
    fun other relaid short => Token.ofSource_relaid scanned relaid short,
    Token.ordered_of_ofSource scanned⟩
  obtain ⟨lexemes, rfl, -⟩ :=
    (Token.ofSource_eq_ok_iff (Token.short_of_ofSource scanned) tokens).mp scanned
  have read : ofSource limits source =
      ofTokens limits (lexemes ++ [Token.finish source.length]) := by
    rw [ofSource, scanned]
    rfl
  have reread : ofSource limits other = ofTokens limits others := by
    rw [ofSource, rescanned]
    rfl
  rw [read, reread]
  exact ofTokens_agrees limits
    ⟨_, List.mem_append_right _ (List.mem_singleton_self _), rfl⟩
    (Alike.list_interchangeable alike (Token.natural?_of_ofSource scanned)
      (Token.natural?_of_ofSource rescanned))

theorem ofSource_layout_spelledOut :
    ∃ tokens, Token.ofSource Limits.standard "n&&7)" = .ok tokens ∧
      (∃ others, Token.ofSource Limits.standard " n and 007 )" = .ok others ∧
        Agree tokens others (ofSource Limits.standard "n&&7)")
          (ofSource Limits.standard " n and 007 )")) ∧
      ∃ others, Token.ofSource Limits.standard "n and 7)" = .ok others ∧
        List.Forall₂ Alike tokens others := by
  have scanned : Token.ofSource Limits.standard "n&&7)" =
      .ok [⟨.quantity, "n", 0⟩, ⟨.and, "&&", 1⟩, ⟨.number, "7", 3⟩, ⟨.closing, ")", 4⟩,
        Token.finish 5] := by decide +kernel
  have rescanned : Token.ofSource Limits.standard " n and 007 )" =
      .ok [⟨.quantity, "n", 1⟩, ⟨.and, "and", 3⟩, ⟨.number, "007", 7⟩, ⟨.closing, ")", 11⟩,
        Token.finish 12] := by decide +kernel
  obtain ⟨agrees, relays, -⟩ := ofSource_layout scanned
  refine ⟨_, scanned, ⟨_, rescanned, agrees _ _ rescanned ?_⟩, relays _ ?_ (by decide)⟩
  · exact .cons ⟨rfl, nofun⟩ (.cons ⟨rfl, nofun⟩ (.cons ⟨rfl, fun _ => by decide⟩
      (.cons ⟨rfl, nofun⟩ (.cons ⟨rfl, nofun⟩ .nil))))
  · have respelled : Token.Respelled ⟨.and, "&&", 1⟩ (' ' :: "and".toList ++ [' ']) := .word .and
    exact Relaid.token (List.mem_cons_of_mem _ List.mem_cons_self) 1 rfl respelled

end Formula

end PluralRule
