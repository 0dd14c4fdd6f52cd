import PluralRule.Proofs.Reading.Peak
import PluralRule.Proofs.Source

/-!
Limits as filters. A source is read the same under all limits, except that some
of them refuse it: for its length, for the nesting of its text, for the nodes of
its tree, or for the depth of its tree, whichever is exceeded first. Main
statement: limits with more room than the source has characters never refuse
it, every other limits agree with them up to a breach, and which breach it is
can be told from the formula and the peak of the nesting.
-/

namespace PluralRule

open Token (Decomposes)

/-- What limits make of a source that is read as a formula, with the most levels
of nesting that are open at once. The first limit that is exceeded counts, and
of the nesting the first level that is too deep. -/
def Limits.filtered (limits : Limits) (source : String) (nesting : Nat) (formula : Formula) :
    Except Fault Formula :=
  if limits.maxLength < source.length then
    .error (.limit ⟨.length, limits.maxLength, source.length⟩)
  else if 1 ≤ nesting ∧ limits.maxDepth < nesting then
    .error (.limit ⟨.depth, limits.maxDepth, max (limits.maxDepth + 1) 1⟩)
  else if limits.maxNodes < formula.nodeCount then
    .error (.limit ⟨.nodes, limits.maxNodes, formula.nodeCount⟩)
  else if limits.maxDepth < formula.treeDepth then
    .error (.limit ⟨.depth, limits.maxDepth, formula.treeDepth⟩)
  else .ok formula

theorem Limits.not_admits_iff (limits : Limits) (nesting : Nat) :
    ¬ limits.Admits 0 nesting ↔ 1 ≤ nesting ∧ limits.maxDepth < nesting := by
  unfold Admits
  omega

theorem Limits.tooDeep_zero (limits : Limits) :
    limits.tooDeep 0 = ⟨.depth, limits.maxDepth, max (limits.maxDepth + 1) 1⟩ := by
  simp only [tooDeep]
  congr 1
  omega

theorem Token.ofSource_eq_of_short {ample limits : Limits} {source : String}
    (room : (source.length : Int) ≤ ample.maxLength)
    (short : (source.length : Int) ≤ limits.maxLength) :
    Token.ofSource limits source = Token.ofSource ample source := by
  rw [Token.ofSource, Token.ofSource, Scanner.run_start room, Scanner.run_start short]
  cases (Token.scan 0 source.toList).obstacle <;> rfl

theorem Token.ofSource_ne_limit {limits : Limits} {source : String}
    (short : (source.length : Int) ≤ limits.maxLength) (breach : Breach) :
    Token.ofSource limits source ≠ .error (.limit breach) := by
  rw [Token.ofSource, Scanner.run_start short]
  intro exceeded
  cases stopped : (Token.scan 0 source.toList).obstacle <;> simp only [stopped] at exceeded <;>
    cases exceeded

namespace Formula

def peakNesting (limits : Limits) (source : String) : Nat :=
  match Token.ofSource limits source with
  | .ok tokens => Reading.initial.peak limits tokens
  | .error _ => 0

variable {ample limits : Limits} {source : String} {formula : Formula}

theorem phrase_peakNesting (read : ofSource ample source = .ok formula) :
    ∃ lexemes, Decomposes source.toList 0 lexemes ∧
      Phrase .choice lexemes formula (peakNesting ample source) := by
  obtain ⟨room, lexemes, nesting, decomposes, phrase, admitted, -⟩ :=
    (ofSource_eq_ok_iff ample source formula).mp read
  have peak : peakNesting ample source = nesting := by
    rw [peakNesting, Token.ofSource_of_decomposes room decomposes]
    exact phrase.peak_eq rfl admitted
  rw [peak]
  exact ⟨lexemes, decomposes, phrase⟩

theorem ofSource_eq_filtered {nesting : Nat} {lexemes : List Token} (limits : Limits)
    (decomposes : Decomposes source.toList 0 lexemes)
    (phrase : Phrase .choice lexemes formula nesting) :
    ofSource limits source = limits.filtered source nesting formula := by
  rw [Limits.filtered]
  split
  · next long => exact ofSource_of_long long
  · next short =>
      rw [ofSource_of_decomposes (Int.not_lt.mp short) decomposes, ofTokens_eq_bind]
      split
      · next deep =>
          have refused := (limits.not_admits_iff nesting).mpr deep
          rw [phrase.run_eq_error limits _ refused, limits.tooDeep_zero]
          rfl
      · next shallow =>
          have allowed := Classical.not_not.mp fun refused =>
            shallow ((limits.not_admits_iff nesting).mp refused)
          rw [phrase.run_eq_ok limits rfl [] allowed, ← measured_eq]
          rfl

theorem ofTokens_sameUpToLimits (limits ample : Limits) (tokens : List Token) :
    SameUpToLimits (ofTokens limits tokens) (ofTokens ample tokens) := by
  rw [ofTokens_eq_bind, ofTokens_eq_bind]
  rcases Reading.initial.run_sameUpToLimits limits ample tokens with
    same | ⟨breach, refused⟩ | ⟨breach, refused⟩
  · rw [same]
    cases (Reading.initial.run ample tokens).1 with
    | error fault => exact Or.inl rfl
    | ok formula =>
        rcases measured_eq_ok_or_limit limits formula with accepted | refused
        · rcases measured_eq_ok_or_limit ample formula with also | refused
          · exact Or.inl (accepted.trans also.symm)
          · exact Or.inr (Or.inr refused)
        · exact Or.inr (Or.inl refused)
  · exact Or.inr (Or.inl ⟨breach, by rw [refused]; rfl⟩)
  · exact Or.inr (Or.inr ⟨breach, by rw [refused]; rfl⟩)

theorem ofSource_sameUpToLimits (limits ample : Limits) (source : String) :
    SameUpToLimits (ofSource limits source) (ofSource ample source) := by
  by_cases short : (source.length : Int) ≤ limits.maxLength
  · by_cases room : (source.length : Int) ≤ ample.maxLength
    · rw [ofSource, ofSource, Token.ofSource_eq_of_short room short]
      cases Token.ofSource ample source with
      | error fault => exact Or.inl rfl
      | ok tokens => exact ofTokens_sameUpToLimits limits ample tokens
    · exact Or.inr (Or.inr ⟨_, ofSource_of_long (Int.not_le.mp room)⟩)
  · exact Or.inr (Or.inl ⟨_, ofSource_of_long (Int.not_le.mp short)⟩)

theorem ofTokens_ne_limit {lexemes : List Token} (plain : ∀ token ∈ lexemes, token.Plain)
    {finish : Token} (ends : finish.kind = .finish)
    (deep : (lexemes.length : Int) + 1 ≤ ample.maxDepth)
    (wide : (lexemes.length : Int) + 1 ≤ ample.maxNodes) (breach : Breach) :
    ofTokens ample (lexemes ++ [finish]) ≠ .error (.limit breach) := by
  have outcome := Reading.run_outcome ample plain ends
  rw [ofTokens_eq_bind]
  intro exceeded
  cases read : (Reading.initial.run ample (lexemes ++ [finish])).1 with
  | ok formula =>
      rw [read] at outcome exceeded
      cases outcome with
      | formula phrase admitted =>
          -- A formula has no more nodes than tokens, and no more levels than nodes.
          have sized := phrase.size_le_length
          have leveled := formula.depth_le_size
          have accepted : measured ample formula = .ok formula :=
            (measured_eq_ok_iff ample formula formula).mpr ⟨rfl, by omega, by omega⟩
          have whole : (Except.ok formula).bind (measured ample) = .ok formula := accepted
          rw [whole] at exceeded
          cases exceeded
  | error fault =>
      rw [read] at outcome exceeded
      cases exceeded
      cases outcome with
      | blame split blames =>
          rcases blames.named with impossible | ⟨impossible, -⟩ <;> cases impossible
      | limit exceeds reached => omega

theorem ofSource_ne_limit (roomy : ∀ bound, (source.length : Int) + 1 ≤ ample.limit bound)
    (breach : Breach) : ofSource ample source ≠ .error (.limit breach) := by
  have long : (source.length : Int) + 1 ≤ ample.maxLength := roomy .length
  have deep : (source.length : Int) + 1 ≤ ample.maxDepth := roomy .depth
  have wide : (source.length : Int) + 1 ≤ ample.maxNodes := roomy .nodes
  have short : (source.length : Int) ≤ ample.maxLength := by omega
  cases scanned : Token.ofSource ample source with
  | error fault =>
      intro exceeded
      rw [ofSource, scanned] at exceeded
      cases exceeded
      exact Token.ofSource_ne_limit short breach scanned
  | ok tokens =>
      obtain ⟨lexemes, -, decomposes⟩ := (Token.ofSource_eq_ok_iff short tokens).mp scanned
      have counted := decomposes.length_le (Nat.zero_le _)
      rw [String.length_toList] at counted
      rw [ofSource_of_decomposes short decomposes]
      exact ofTokens_ne_limit decomposes.plain rfl (by omega) (by omega) breach

/-- Limits only filter. They change neither a formula nor any other fault, and
limits that allow more read whatever was read. -/
theorem ofSource_filters (source : String) (ample limits : Limits)
    (roomy : ∀ bound, (source.length : Int) + 1 ≤ ample.limit bound) :
    (∀ formula, ofSource ample source = .ok formula →
        ofSource limits source = limits.filtered source (peakNesting ample source) formula ∧
          ∃ lexemes, Decomposes source.toList 0 lexemes ∧
            Phrase .choice lexemes formula (peakNesting ample source)) ∧
      (∀ fault, ofSource ample source = .error fault →
        (∀ breach, fault ≠ .limit breach) ∧
          (ofSource limits source = .error fault ∨
            ∃ breach, ofSource limits source = .error (.limit breach))) ∧
      (∀ larger : Limits, (∀ bound, limits.limit bound ≤ larger.limit bound) →
        ∀ formula, ofSource limits source = .ok formula →
          ofSource larger source = .ok formula) := by
  refine ⟨fun formula read => ?_, fun fault refused => ?_,
    fun larger wider formula read => ofSource_of_wider wider read⟩
  · obtain ⟨lexemes, decomposes, phrase⟩ := phrase_peakNesting read
    exact ⟨ofSource_eq_filtered limits decomposes phrase, lexemes, decomposes, phrase⟩
  · have free (breach : Breach) : ofSource ample source ≠ .error (.limit breach) :=
      ofSource_ne_limit roomy breach
    constructor
    · rintro breach rfl
      exact free breach refused
    · rcases ofSource_sameUpToLimits limits ample source with
        same | breached | ⟨breach, exceeded⟩
      · exact Or.inl (same.trans refused)
      · exact Or.inr breached
      · exact absurd exceeded (free breach)

theorem ofSource_filters_signedGroup :
    (∀ bound, ("-(n)".length : Int) + 1 ≤ (Limits.mk 5 5 5).limit bound) ∧
      ofSource ⟨5, 5, 5⟩ "-(n)" = .ok (.unary 0 .sign (.quantity 2)) ∧
      ofSource ⟨9, 1, 9⟩ "-(n)" = .error (.limit ⟨.depth, 1, 2⟩) ∧
      ofSource ⟨4, 2, 1⟩ "-(n)" = .error (.limit ⟨.nodes, 1, 2⟩) := by
  have roomy : ∀ bound, ("-(n)".length : Int) + 1 ≤ (Limits.mk 5 5 5).limit bound := by
    intro bound
    cases bound <;> decide
  have scanned : Token.ofSource ⟨5, 5, 5⟩ "-(n)" =
      .ok [⟨.minus, "-", 0⟩, ⟨.opening, "(", 1⟩, ⟨.quantity, "n", 2⟩, ⟨.closing, ")", 3⟩,
        Token.finish 4] := by
    have scan : Token.scan 0 "-(n)".toList =
        ⟨[⟨.minus, "-", 0⟩, ⟨.opening, "(", 1⟩, ⟨.quantity, "n", 2⟩, ⟨.closing, ")", 3⟩], 4,
          none⟩ := by
      decide +kernel
    rw [Token.ofSource, Scanner.run_start (by decide), scan]
    rfl
  have read : ofSource ⟨5, 5, 5⟩ "-(n)" = .ok (.unary 0 .sign (.quantity 2)) := by
    rw [ofSource, scanned]
    exact (measured_eq_ok_iff _ _ _).mpr ⟨rfl, by decide, by decide⟩
  have peak : peakNesting ⟨5, 5, 5⟩ "-(n)" = 2 := by
    rw [peakNesting, scanned]
    rfl
  have deep := ((ofSource_filters "-(n)" ⟨5, 5, 5⟩ ⟨9, 1, 9⟩ roomy).1 _ read).1
  have wide := ((ofSource_filters "-(n)" ⟨5, 5, 5⟩ ⟨4, 2, 1⟩ roomy).1 _ read).1
  rw [peak, Limits.filtered, nodeCount_eq_size, treeDepth_eq_depth] at deep wide
  exact ⟨roomy, read, deep, wide⟩

end Formula

end PluralRule
