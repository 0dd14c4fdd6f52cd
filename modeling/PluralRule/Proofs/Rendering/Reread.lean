import PluralRule.Proofs.Source

/-!
Reading back what was rendered. The text of a known formula is never refused
for its lexemes, its grammar or its literals; whether it is read depends on the
limits alone. Main statement: rendered text is read as the formula it was
rendered from exactly when the limits allow its length and the measures of the
formula, and otherwise a limit is reported.
-/

namespace PluralRule

theorem Token.ofSource_of_reads {source : String} {tokens : List Token} {limits : Limits}
    (short : (source.length : Int) ≤ limits.maxLength)
    (reads : Token.Reads 0 source.toList tokens) :
    Token.ofSource limits source = .ok (tokens ++ [Token.finish source.length]) := by
  have checked := (Limits.check_eq_ok_iff limits .length source.length).mpr short
  have whole := reads [] (by simp [Token.Apart])
  rw [List.append_nil, String.length_toList] at whole
  simp [Token.ofSource, Scanner.run, Scanner.start, checked, whole, Token.scan, Token.Scan.behind]

structure Limits.Allow (limits : Limits) (source : String) (formula : Formula) : Prop where
  length : (source.length : Int) ≤ limits.maxLength
  nodes : (formula.nodeCount : Int) ≤ limits.maxNodes
  depth : (formula.treeDepth : Int) ≤ limits.maxDepth
  nesting : (formula.renderedNesting false : Int) ≤ limits.maxDepth

namespace Phrase

variable {tokens : List Token} {read : Formula} {nesting : Nat} {limits : Limits}

theorem ofTokens_eq_ok (phrase : Phrase .choice tokens read nesting) (finish : Token)
    (ends : finish.kind = .finish) (narrow : (read.size : Int) ≤ limits.maxNodes)
    (shallow : (read.depth : Int) ≤ limits.maxDepth) (nested : (nesting : Int) ≤ limits.maxDepth) :
    Formula.ofTokens limits (tokens ++ [finish]) = .ok read := by
  rw [Formula.ofTokens_eq_bind, phrase.run_eq_ok limits ends [] (Or.inr (by omega))]
  exact (Formula.measured_eq_ok_iff limits read read).mpr ⟨rfl, narrow, shallow⟩

theorem ofTokens_eq_error (phrase : Phrase .choice tokens read nesting) (finish : Token)
    (ends : finish.kind = .finish)
    (exceeds : ¬ ((read.size : Int) ≤ limits.maxNodes ∧ (read.depth : Int) ≤ limits.maxDepth ∧
      (nesting : Int) ≤ limits.maxDepth)) :
    ∃ breach, Formula.ofTokens limits (tokens ++ [finish]) = .error (.limit breach) := by
  rw [Formula.ofTokens_eq_bind]
  by_cases admitted : limits.Admits 0 nesting
  · rw [phrase.run_eq_ok limits ends [] admitted]
    rcases Formula.measured_eq_ok_or_limit limits read with accepted | refused
    · obtain ⟨-, narrow, shallow⟩ := (Formula.measured_eq_ok_iff limits read read).mp accepted
      have positive := read.depth_pos
      -- A phrase without nesting passes any limit that its depth passes.
      refine absurd ⟨narrow, shallow, ?_⟩ exceeds
      rcases admitted with flat | deep <;> omega
    · exact refused
  · exact ⟨_, by rw [phrase.run_eq_error limits [finish] admitted]; rfl⟩

end Phrase

namespace Formula

variable {source : String} {formula : Formula} {limits : Limits}

theorem ofSource_eq_of_reads {tokens : List Token}
    (short : (source.length : Int) ≤ limits.maxLength)
    (reads : Token.Reads 0 source.toList tokens) :
    ofSource limits source = ofTokens limits (tokens ++ [Token.finish source.length]) := by
  rw [ofSource, Token.ofSource_of_reads short reads]
  rfl

theorem ofSource_of_allow
    (spelled : Spelled .choice source.toList formula (formula.renderedNesting false))
    (allowed : limits.Allow source formula) :
    ∃ read, ofSource limits source = .ok read ∧ read.Identical formula := by
  rcases spelled 0 with ⟨tokens, read, reads, phrase, same⟩
  have narrow := allowed.nodes
  have shallow := allowed.depth
  rw [nodeCount_eq_size, ← same.same.size_eq] at narrow
  rw [treeDepth_eq_depth, ← same.same.depth_eq] at shallow
  refine ⟨read, ?_, same⟩
  rw [ofSource_eq_of_reads allowed.length reads]
  exact phrase.ofTokens_eq_ok _ rfl narrow shallow allowed.nesting

theorem ofSource_of_not_allow
    (spelled : Spelled .choice source.toList formula (formula.renderedNesting false))
    (exceeds : ¬ limits.Allow source formula) :
    ∃ breach, ofSource limits source = .error (.limit breach) := by
  by_cases long : limits.maxLength < (source.length : Int)
  · exact ⟨_, ofSource_of_long long⟩
  · have short : (source.length : Int) ≤ limits.maxLength := by omega
    rcases spelled 0 with ⟨tokens, read, reads, phrase, same⟩
    rw [ofSource_eq_of_reads short reads]
    apply phrase.ofTokens_eq_error _ rfl
    rintro ⟨narrow, shallow, nested⟩
    apply exceeds
    constructor
    · exact short
    · rw [nodeCount_eq_size, ← same.same.size_eq]
      exact narrow
    · rw [treeDepth_eq_depth, ← same.same.depth_eq]
      exact shallow
    · exact nested

/-- Reading undoes rendering wherever the limits allow it, and only limits stand against it. -/
theorem ofSource_render [Writing] (formula : Formula) (known : formula.Known Writable) :
    ∃ source, formula.render = .ok source ∧
      (∀ limits, (∃ read, ofSource limits source = .ok read ∧ read.Identical formula) ↔
        limits.Allow source formula) ∧
      (∀ limits, ¬ limits.Allow source formula →
        ∃ breach, ofSource limits source = .error (.limit breach)) ∧
      formula.renderedNesting false ≤ 2 * (formula.treeDepth - 1) ∧
      (∀ limits : Limits, (source.length : Int) ≤ limits.maxLength →
        (formula.nodeCount : Int) ≤ limits.maxNodes →
        2 * (formula.treeDepth : Int) ≤ limits.maxDepth →
        ∃ read, ofSource limits source = .ok read ∧ read.Identical formula) := by
  rcases known.readBack false with ⟨source, rendered, -, spelled⟩
  have nested : formula.renderedNesting false ≤ 2 * (formula.treeDepth - 1) := by
    rw [treeDepth_eq_depth]
    exact formula.renderedNesting_le false
  refine ⟨source, rendered, ?_, fun limits => ofSource_of_not_allow spelled, nested, ?_⟩
  · intro limits
    constructor
    · rintro ⟨read, accepted, -⟩
      by_cases allowed : limits.Allow source formula
      · exact allowed
      · obtain ⟨breach, refused⟩ := ofSource_of_not_allow spelled allowed
        rw [refused] at accepted
        cases accepted
    · intro allowed
      exact ofSource_of_allow spelled allowed
  · intro limits short narrow deep
    exact ofSource_of_allow spelled ⟨short, narrow, by omega, by omega⟩

def signedSum : Formula :=
  .binary 0 (.known (.numeric .sum)) (.unary 0 .sign (.unary 0 .sign (.quantity 0)))
    (.unary 0 .negation (.literal 0 (.int 3)))

attribute [local instance] Writing.standard

theorem ofSource_render_signedSum :
    signedSum.Known Writable ∧ signedSum.render = .ok "--n + (!3)" ∧
      ∃ read, ofSource ⟨10, 4, 6⟩ "--n + (!3)" = .ok read ∧ read.Identical signedSum := by
  have known : signedSum.Known Writable := by
    simp [signedSum, Known, UnaryOperator.Known, BinaryOperator.Known, Writable, Word.greatest]
  rcases ofSource_render signedSum known with ⟨source, rendered, reads, -⟩
  have written : signedSum.render = .ok "--n + (!3)" := by rfl
  cases written.symm.trans rendered
  refine ⟨known, written, (reads ⟨10, 4, 6⟩).mpr ⟨by decide, ?_, ?_, by decide⟩⟩
  · rw [nodeCount_eq_size]
    decide
  · rw [treeDepth_eq_depth]
    decide

end Formula

end PluralRule
