import PluralRule.Proofs.Known
import PluralRule.Proofs.Narrow
import PluralRule.Proofs.Rendering.Lexemes

/-!
What rendered text spells. The text of a known formula reads, at every place,
as a phrase that builds the formula again: as an operand it is a phrase of the
level of signs, and by itself it is a phrase of the loosest level. Main
statement: every known formula has such a text, and the nesting of the phrase
is the nesting that the renderer wrote.
-/

namespace PluralRule

namespace Formula

/-- A number with digits and no sign that fits in a word. -/
def Writable : Number → Prop
  | .int value => 0 ≤ value ∧ value ≤ Word.greatest
  | .truth _ => False

theorem digits_of_writable {number : Number} (writable : Writable number) :
    ∃ digits : Nat, number = .int digits ∧ (digits : Int) ≤ Word.greatest := by
  cases number with
  | int value =>
      obtain ⟨digits, rfl⟩ := Int.eq_ofNat_of_zero_le writable.1
      exact ⟨digits, rfl, writable.2⟩
  | truth holds => exact absurd writable id

theorem narrow_of_writable [Writing] {number : Number} (writable : Writable number) :
    Text.Narrow number.value := by
  obtain ⟨digits, rfl, small⟩ := digits_of_writable writable
  exact Word.narrow ⟨Int.le_trans (by decide) (Int.natCast_nonneg digits), small⟩

/-- The levels of nesting that rendering writes: one for each pair of
parentheses, for each operator before an operand and for each branch of a choice. -/
def renderedNesting (nested : Bool) : Formula → Nat
  | .literal .. => 0
  | .quantity _ => 0
  | .unary _ operator operand =>
      (nested && operator = .negation).toNat + (1 + operand.renderedNesting true)
  | .binary _ _ left right =>
      nested.toNat + max (left.renderedNesting true) (right.renderedNesting true)
  | .choice _ condition consequent alternate =>
      nested.toNat + max (condition.renderedNesting true)
        (max (1 + consequent.renderedNesting true) (1 + alternate.renderedNesting true))
  | .foreign _ => 0

theorem renderedNesting_le (formula : Formula) (nested : Bool) :
    formula.renderedNesting nested ≤ 2 * (formula.depth - 1) := by
  induction formula generalizing nested with
  | literal position number => exact Nat.zero_le _
  | quantity position => exact Nat.zero_le _
  -- An operator and its parentheses write two levels for one level of the tree.
  | unary position operator operand ih =>
      have inner := ih true
      have positive := operand.depth_pos
      have once := Bool.toNat_le (nested && operator = .negation)
      simp only [renderedNesting, depth]
      omega
  | binary position operator left right leftIh rightIh =>
      have before := leftIh true
      have after := rightIh true
      have positive := left.depth_pos
      have once := Bool.toNat_le nested
      simp only [renderedNesting, depth]
      omega
  | choice position condition consequent alternate firstIh secondIh thirdIh =>
      have first := firstIh true
      have second := secondIh true
      have third := thirdIh true
      have positive := consequent.depth_pos
      have once := Bool.toNat_le nested
      simp only [renderedNesting, depth]
      omega
  | foreign leaf => exact Nat.zero_le _

end Formula

/-- At every place the text reads as a phrase of the level that builds the formula. -/
def Spelled (level : Level) (text : List Char) (formula : Formula) (nesting : Nat) : Prop :=
  ∀ position, ∃ tokens read, Token.Reads position text tokens ∧
    Phrase level tokens read nesting ∧ read.Identical formula

/-- Put behind an exclamation mark, the text does not make another operator of it. -/
def Unmerged (text : List Char) : Prop := ∃ first rest, text = first :: rest ∧ first ≠ '='

namespace Spelled

variable {level : Level} {text before after : List Char} {formula left right : Formula}
  {nesting outer inner : Nat}

theorem loosen {tight : Level} (spelled : Spelled tight text formula nesting) (level : Level)
    (below : level.rank ≤ tight.rank) : Spelled level text formula nesting := by
  intro position
  rcases spelled position with ⟨tokens, read, reads, phrase, same⟩
  exact ⟨tokens, read, reads, phrase.loosen level below, same⟩

theorem literal (position : Int) (number : Nat) (small : (number : Int) ≤ Word.greatest) :
    Spelled .primary (Nat.toDigits 10 number) (.literal position (.int number)) 0 := by
  intro place
  exact ⟨_, _, Token.reads_natural place number,
    .number rfl (Text.natural?_naturalText number) small, rfl⟩

theorem quantity (position : Int) : Spelled .primary ['n'] (.quantity position) 0 :=
  fun place => ⟨_, _, Token.reads_quantity place, .quantity rfl, rfl⟩

theorem enclosed (spelled : Spelled .choice text formula nesting) :
    Spelled .primary ('(' :: (text ++ [')'])) formula (1 + nesting) := by
  intro position
  rcases spelled (position + 1) with ⟨tokens, read, reads, phrase, same⟩
  let closing : Token := ⟨.closing, ")", (position + 1 + text.length : Nat)⟩
  have closed : Token.Reads (position + 1 + text.length) [')'] [closing] :=
    .single (by decide) rfl (fun rest _ => by cases rest <;> rfl) .nil
  have inside := reads.append (by decide) closed
  refine ⟨⟨.opening, "(", position⟩ :: (tokens ++ [closing]), read, ?_, .group rfl rfl phrase, same⟩
  exact .single (by decide) rfl (fun rest _ => by cases text <;> rfl) inside

theorem sign (position : Int) (spelled : Spelled .sign text formula nesting) :
    Spelled .sign ('-' :: text) (.unary position .sign formula) (1 + nesting) := by
  intro place
  rcases spelled (place + 1) with ⟨tokens, read, reads, phrase, same⟩
  refine ⟨⟨.minus, "-", place⟩ :: tokens, _, ?_, .sign rfl phrase, same.unary place position .sign⟩
  exact .single (by decide) rfl (fun rest _ => by cases text ++ rest <;> rfl) reads

theorem negation (position : Int) (spelled : Spelled .sign text formula nesting)
    (unmerged : Unmerged text) :
    Spelled .negation ('!' :: text) (.unary position .negation formula) (1 + nesting) := by
  intro place
  rcases spelled (place + 1) with ⟨tokens, read, reads, phrase, same⟩
  rcases unmerged with ⟨first, rest, rfl, different⟩
  -- The only symbol that could merge with an operand behind it.
  have unpaired : Token.pairKind? '!' first = none := by
    simp [Token.pairKind?, different]
  refine ⟨⟨.not, "!", place⟩ :: tokens, _, ?_,
    .negation rfl (phrase.loosen .negation (by decide)), same.unary place position .negation⟩
  exact .single (by decide) rfl (fun _ _ => unpaired) reads

theorem binary (position : Int) (operation : Operation)
    (leftSpelled : Spelled .sign before left outer)
    (rightSpelled : Spelled .sign after right inner) :
    Spelled operation.level (before ++ ' ' :: (operation.symbol.toList ++ ' ' :: after))
      (.binary position (.known operation) left right) (max outer inner) := by
  intro place
  rcases leftSpelled place with ⟨tokens, first, reads, phrase, same⟩
  -- The right operand stands behind the left one, the symbol and two blanks.
  obtain ⟨others, second, behind, following, alike⟩ := rightSpelled
    (place + before.length + 1 + operation.symbol.toList.length + 1)
  rcases operation.tighter_level with ⟨next, above, below⟩
  have lower := Level.rank_of_tighter? operation.level next above
  have leftPart := phrase.loosen operation.level (by omega)
  have rightPart := following.loosen next below
  exact ⟨_, _, .between operation.separate reads behind,
    .joined (operation.joins_level _ operation.operation?_kind) above leftPart rightPart,
    same.binary alike _ position (.known operation)⟩

theorem choice (position : Int) {second third : List Char}
    {condition consequent alternate : Formula} {last : Nat}
    (conditionSpelled : Spelled .sign before condition outer)
    (consequentSpelled : Spelled .sign second consequent inner)
    (alternateSpelled : Spelled .sign third alternate last) :
    Spelled .choice (before ++ ' ' :: (['?'] ++ ' ' :: (second ++ ' ' :: ([':'] ++ ' ' :: third))))
      (.choice position condition consequent alternate)
      (max outer (max (1 + inner) (1 + last))) := by
  intro place
  rcases conditionSpelled place with ⟨tokens, asked, reads, phrase, same⟩
  obtain ⟨taken, chosen, readsTaken, takenPhrase, takenSame⟩ :=
    consequentSpelled (place + before.length + 1 + 1 + 1)
  obtain ⟨others, refused, readsOthers, othersPhrase, othersSame⟩ := alternateSpelled
    (place + before.length + 1 + 1 + 1 + second.length + 1 + 1 + 1)
  -- A choice is placed at the first token of its condition.
  cases tokens with
  | nil => exact absurd rfl phrase.ne_nil
  | cons first rest =>
      refine ⟨_, _, .between Token.separate_question reads
        (.between Token.separate_colon readsTaken readsOthers),
        .choice rfl rfl (phrase.loosen _ (by decide)) (takenPhrase.loosen _ (by decide))
          (othersPhrase.loosen _ (by decide)), ?_⟩
      exact same.choice takenSame othersSame _ position

end Spelled

def Level.rendered (nested : Bool) : Level := if nested then .sign else .choice

theorem Spelled.parenthesized {text : String} {formula : Formula} {nesting : Nat} (enclosed : Bool)
    (level : Level) (loose : Spelled .choice text.toList formula nesting)
    (bare : enclosed = false → Spelled level text.toList formula nesting) :
    Spelled level (Formula.parenthesized enclosed text).toList formula
      (enclosed.toNat + nesting) := by
  cases enclosed with
  | false =>
      rw [Bool.toNat_false, Nat.zero_add]
      exact bare rfl
  | true =>
      have whole := loose.enclosed.loosen level level.rank_le_primary
      simpa [Formula.parenthesized] using whole

theorem unmerged_natural (number : Nat) : Unmerged (Nat.toDigits 10 number) := by
  rcases Text.toDigits_eq_cons number with ⟨first, rest, spelled, digits⟩
  refine ⟨first, rest, spelled, ?_⟩
  rintro rfl
  exact absurd (digits '=' List.mem_cons_self) (by decide)

theorem unmerged_parenthesized {text : String} (enclosed : Bool) (unmerged : Unmerged text.toList) :
    Unmerged (Formula.parenthesized enclosed text).toList := by
  cases enclosed with
  | false => exact unmerged
  | true => exact ⟨'(', text.toList ++ [')'], by simp [Formula.parenthesized], by decide⟩

theorem Unmerged.append {before : List Char} (unmerged : Unmerged before) (after : List Char) :
    Unmerged (before ++ after) := by
  rcases unmerged with ⟨first, rest, rfl, different⟩
  exact ⟨first, rest ++ after, rfl, different⟩

namespace Formula

def ReadBack [Writing] (nested : Bool) (formula : Formula) : Prop :=
  ∃ text, renderPart nested formula = .ok text ∧ Unmerged text.toList ∧
    Spelled (.rendered nested) text.toList formula (formula.renderedNesting nested)

theorem readBack_of_spelled [Writing] {nested : Bool} {formula : Formula} {level : Level}
    {text : String}
    {nesting : Nat} (enclosed : Bool) (spelled : Spelled level text.toList formula nesting)
    (unmerged : Unmerged text.toList)
    (bare : enclosed = false → (Level.rendered nested).rank ≤ level.rank)
    (written : renderPart nested formula = .ok (parenthesized enclosed text))
    (counted : formula.renderedNesting nested = enclosed.toNat + nesting) :
    ReadBack nested formula := by
  refine ⟨_, written, unmerged_parenthesized enclosed unmerged, ?_⟩
  rw [counted]
  exact .parenthesized enclosed (.rendered nested) (spelled.loosen .choice (Nat.zero_le _))
    fun plain => spelled.loosen _ (bare plain)

namespace ReadBack

variable [Writing] {nested : Bool} {operand left right condition consequent alternate : Formula}

theorem negation (position : Int) (rendered : ReadBack true operand) :
    ReadBack nested (.unary position .negation operand) := by
  rcases rendered with ⟨inner, written, unmerged, spelled⟩
  have whole : Spelled .negation ("!" ++ inner).toList (.unary position .negation operand)
      (1 + operand.renderedNesting true) := by
    rw [String.toList_append]
    exact spelled.negation position unmerged
  refine readBack_of_spelled nested whole ?_ ?_ ?_ ?_
  · rw [String.toList_append]
    exact ⟨'!', inner.toList, rfl, by decide⟩
  · rintro rfl
    decide
  · rw [renderPart, written]
    cases nested <;> rfl
  · cases nested <;> rfl

theorem sign (position : Int) (rendered : ReadBack true operand) :
    ReadBack nested (.unary position .sign operand) := by
  rcases rendered with ⟨inner, written, unmerged, spelled⟩
  have whole : Spelled .sign ("-" ++ inner).toList (.unary position .sign operand)
      (1 + operand.renderedNesting true) := by
    rw [String.toList_append]
    exact spelled.sign position
  refine readBack_of_spelled false whole ?_ ?_ ?_ ?_
  · rw [String.toList_append]
    exact ⟨'-', inner.toList, rfl, by decide⟩
  · cases nested <;> decide
  · rw [renderPart, written]
    cases nested <;> rfl
  · cases nested <;> rfl

theorem binary (position : Int) (operation : Operation) (leftRendered : ReadBack true left)
    (rightRendered : ReadBack true right) :
    ReadBack nested (.binary position (.known operation) left right) := by
  rcases leftRendered with ⟨before, leftWritten, unmerged, leftSpelled⟩
  rcases rightRendered with ⟨after, rightWritten, -, rightSpelled⟩
  have spread : (before ++ " " ++ operation.symbol ++ " " ++ after).toList =
      before.toList ++ ' ' :: (operation.symbol.toList ++ ' ' :: after.toList) := by
    simp
  have whole := leftSpelled.binary position operation rightSpelled
  rw [← spread] at whole
  refine readBack_of_spelled nested whole ?_ ?_ ?_ rfl
  · rw [spread]
    exact unmerged.append _
  · rintro rfl
    exact Nat.zero_le _
  · rw [renderPart, leftWritten, rightWritten]
    rfl

theorem choice (position : Int) (conditionRendered : ReadBack true condition)
    (consequentRendered : ReadBack true consequent) (alternateRendered : ReadBack true alternate) :
    ReadBack nested (.choice position condition consequent alternate) := by
  rcases conditionRendered with ⟨first, firstWritten, unmerged, firstSpelled⟩
  rcases consequentRendered with ⟨second, secondWritten, -, secondSpelled⟩
  rcases alternateRendered with ⟨third, thirdWritten, -, thirdSpelled⟩
  have spread : (first ++ " ? " ++ second ++ " : " ++ third).toList =
      first.toList ++ ' ' :: (['?'] ++ ' ' :: (second.toList ++
        ' ' :: ([':'] ++ ' ' :: third.toList))) := by
    simp
  have whole := firstSpelled.choice position secondSpelled thirdSpelled
  rw [← spread] at whole
  refine readBack_of_spelled nested whole ?_ ?_ ?_ rfl
  · rw [spread]
    exact unmerged.append _
  · rintro rfl
    exact Nat.zero_le _
  · rw [renderPart, firstWritten, secondWritten, thirdWritten]
    rfl

end ReadBack

theorem Known.readBack [Writing] {formula : Formula} (known : formula.Known Writable)
    (nested : Bool) :
    ReadBack nested formula := by
  induction formula generalizing nested with
  | literal position number =>
      obtain ⟨number, rfl, small⟩ := digits_of_writable known
      have digits : (Text.naturalText number).toList = Nat.toDigits 10 number :=
        String.toList_ofList
      have spelled := Spelled.literal position number small
      rw [← digits] at spelled
      refine readBack_of_spelled false spelled ?_ (fun _ => Level.rank_le_primary _) ?_ rfl
      · rw [digits]
        exact unmerged_natural number
      · rw [renderPart, Number.written?_eq, if_pos (narrow_of_writable known)]
        rfl
  | quantity position =>
      have spelled : Spelled .primary "n".toList (.quantity position) 0 := .quantity position
      have unmerged : Unmerged "n".toList := ⟨'n', [], rfl, by decide⟩
      exact readBack_of_spelled false spelled unmerged (fun _ => Level.rank_le_primary _)
        rfl rfl
  | unary position operator operand ih =>
      cases operator with
      | negation => exact .negation position (ih known.2 true)
      | sign => exact .sign position (ih known.2 true)
      | «unknown» symbol strange => exact absurd known.1 id
  | binary position operator left right leftIh rightIh =>
      cases operator with
      | known operation =>
          exact .binary position operation (leftIh known.2.1 true)
            (rightIh known.2.2 true)
      | «unknown» symbol strange => exact absurd known.1 id
  | choice position condition consequent alternate firstIh secondIh thirdIh =>
      exact .choice position (firstIh known.1 true)
        (secondIh known.2.1 true) (thirdIh known.2.2 true)
  | foreign leaf => exact absurd known id

end Formula

end PluralRule
