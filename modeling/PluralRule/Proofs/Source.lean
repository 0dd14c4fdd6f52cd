import PluralRule.Proofs.Reading.Acceptance
import PluralRule.Proofs.Rendering.Spelled
import PluralRule.Proofs.Scanning.Decomposition

/-!
Sources from end to end. The lexemes of a text are plain tokens and no more of
them than characters, so that what holds of reading plain tokens holds of
sources. Main statements: a source is read as a formula exactly when the grammar
derives the formula from the lexemes of the source and the limits allow both,
and every formula that is read is known, with literals that can be written.
-/

namespace PluralRule

open Token (Decomposes)

namespace Token

theorem plain_of_written {token : Token} (written : token.kind.Written token.text.toList) :
    token.Plain := by
  constructor
  · intro ends
    rw [ends] at written
    rcases written with ⟨impossible, -⟩ | spelled
    · cases impossible
    · cases spelled
  · intro spelled
    rw [spelled] at written
    rcases written with ⟨-, filled, digits⟩ | impossible
    · have read := (Text.natural?_eq_some_iff token.text.toList _).mpr ⟨filled, digits, rfl⟩
      exact Option.isSome_iff_exists.mpr ⟨_, read⟩
    · cases impossible

namespace Decomposes

variable {text : List Char} {start : Nat} {tokens : List Token}

theorem plain (decomposes : Decomposes text start tokens) : ∀ token ∈ tokens, token.Plain := by
  intro token member
  rcases decomposes.lexemes token member with ⟨place, -, -, stands⟩
  exact plain_of_written stands.written

end Decomposes

end Token

theorem Phrase.known {level : Level} {tokens : List Token} {formula : Formula} {nesting : Nat}
    (phrase : Phrase level tokens formula nesting) : formula.Known Formula.Writable := by
  induction phrase with
  | tighter above part ih => exact ih
  | choice asks divides conditionPart consequentPart alternatePart firstIh secondIh thirdIh =>
      exact ⟨firstIh, secondIh, thirdIh⟩
  | joined joins above leftPart rightPart leftIh rightIh => exact ⟨trivial, leftIh, rightIh⟩
  | negation spelled part ih => exact ⟨trivial, ih⟩
  | sign spelled part ih => exact ⟨trivial, ih⟩
  | number spelled read small => exact ⟨Int.natCast_nonneg _, small⟩
  | quantity spelled => trivial
  | group opens closes part ih => exact ih

namespace Formula

variable {limits : Limits} {source : String} {formula : Formula}

theorem ofSource_of_long (long : limits.maxLength < (source.length : Int)) :
    ofSource limits source = .error (.limit ⟨.length, limits.maxLength, source.length⟩) := by
  rw [ofSource, Token.ofSource_of_long long]
  rfl

theorem ofSource_of_decomposes (short : (source.length : Int) ≤ limits.maxLength)
    {lexemes : List Token} (decomposes : Decomposes source.toList 0 lexemes) :
    ofSource limits source = ofTokens limits (lexemes ++ [Token.finish source.length]) := by
  rw [ofSource, Token.ofSource_of_decomposes short decomposes]
  rfl

theorem ofSource_eq_ok_iff (limits : Limits) (source : String) (formula : Formula) :
    ofSource limits source = .ok formula ↔
      (source.length : Int) ≤ limits.maxLength ∧
        ∃ lexemes nesting, Decomposes source.toList 0 lexemes ∧
          Phrase .choice lexemes formula nesting ∧ limits.Admits 0 nesting ∧
          (formula.size : Int) ≤ limits.maxNodes ∧ (formula.depth : Int) ≤ limits.maxDepth := by
  constructor
  · intro read
    by_cases short : (source.length : Int) ≤ limits.maxLength
    · cases scanned : Token.ofSource limits source with
      | error fault =>
          rw [ofSource, scanned] at read
          cases read
      | ok tokens =>
          obtain ⟨lexemes, -, decomposes⟩ := (Token.ofSource_eq_ok_iff short tokens).mp scanned
          rw [ofSource_of_decomposes short decomposes] at read
          obtain ⟨nesting, phrase, allowed⟩ := (ofTokens_eq_ok_iff decomposes.plain rfl _).mp read
          exact ⟨short, lexemes, nesting, decomposes, phrase, allowed⟩
    · rw [ofSource_of_long (Int.not_le.mp short)] at read
      cases read
  · rintro ⟨short, lexemes, nesting, decomposes, phrase, allowed⟩
    rw [ofSource_of_decomposes short decomposes]
    exact (ofTokens_eq_ok_iff decomposes.plain rfl _).mpr ⟨nesting, phrase, allowed⟩

theorem known_of_ofSource (read : ofSource limits source = .ok formula) :
    formula.Known Writable := by
  obtain ⟨-, lexemes, nesting, -, phrase, -⟩ := (ofSource_eq_ok_iff limits source formula).mp read
  exact phrase.known

theorem ofSource_of_wider {larger : Limits}
    (wider : ∀ bound, limits.limit bound ≤ larger.limit bound)
    (read : ofSource limits source = .ok formula) : ofSource larger source = .ok formula := by
  have long : limits.maxLength ≤ larger.maxLength := wider .length
  have deep : limits.maxDepth ≤ larger.maxDepth := wider .depth
  have wide : limits.maxNodes ≤ larger.maxNodes := wider .nodes
  obtain ⟨short, lexemes, nesting, decomposes, phrase, admitted, narrow, shallow⟩ :=
    (ofSource_eq_ok_iff limits source formula).mp read
  have again : larger.Admits 0 nesting := admitted.imp id fun within => Int.le_trans within deep
  exact (ofSource_eq_ok_iff larger source formula).mpr
    ⟨by omega, lexemes, nesting, decomposes, phrase, again, by omega, by omega⟩

end Formula

end PluralRule
