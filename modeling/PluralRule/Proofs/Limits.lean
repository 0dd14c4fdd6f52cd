import PluralRule.Limits.Record

/-!
Limits written as records. A record writes a limit under the camel case name of its
bound, or under its other name, or it leaves the standard limit. Main statement: the
records that are read as limits are those that write positive ones, and any other
record is rejected for the first bound, in their order, whose entry is of no use.
-/

namespace PluralRule

def Bound.before : Bound → List Bound
  | .length => []
  | .depth => [.length]
  | .nodes => [.length, .depth]

namespace Limits

/-- The record writes the limit of the bound. Where the camel case name is present, the
other one may hold anything. -/
inductive Writes (record : Record) (bound : Bound) (limit : Int) : Prop where
  | camel (given : record.find? bound.camelName = some (.int limit))
  | plain (absent : record.find? bound.camelName = none)
      (given : record.find? bound.name = some (.int limit))
  | standard (absent : record.find? bound.camelName = none)
      (missing : record.find? bound.name = none) (same : limit = standard.limit bound)

structure Encodes (record : Record) (limits : Limits) : Prop where
  positive : ∀ bound, 1 ≤ limits.limit bound
  written : ∀ bound, Writes record bound (limits.limit bound)

def Useless (value : Value) : Prop := ∀ limit, 1 ≤ limit → value ≠ .int limit

inductive Refuses (record : Record) (bound : Bound) : Prop where
  | camel {value : Value} (given : record.find? bound.camelName = some value)
      (useless : Useless value)
  | plain {value : Value} (absent : record.find? bound.camelName = none)
      (given : record.find? bound.name = some value) (useless : Useless value)

/-- The first bound whose entry is of no use. -/
structure Blames (record : Record) (bound : Bound) : Prop where
  refuses : Refuses record bound
  first : ∀ earlier ∈ bound.before, ¬ Refuses record earlier

variable {record : Record} {bound : Bound} {limit : Int} {limits : Limits} {value : Value}

theorem limit_standard_pos (bound : Bound) : 1 ≤ standard.limit bound := by
  cases bound <;> decide

theorem positive?_eq_none_iff : value.positive? = none ↔ Useless value := by
  rw [Option.eq_none_iff_forall_ne_some]
  simp only [ne_eq, Value.positive?_eq_some_iff, not_and', Useless]

theorem limitFrom_of_positive (given : entry? record bound = some (.int limit))
    (positive : 1 ≤ limit) : limitFrom record bound = .ok limit := by
  have read := (Value.positive?_eq_some_iff (.int limit) limit).mpr ⟨rfl, positive⟩
  simp only [limitFrom, given, read]

theorem limitFrom_of_useless (given : entry? record bound = some value)
    (useless : Useless value) : limitFrom record bound = .error bound := by
  simp only [limitFrom, given, positive?_eq_none_iff.mpr useless]

theorem camel_entry (given : record.find? bound.camelName = some value) :
    entry? record bound = some value := by
  simp only [given, Option.some_or, entry?]

theorem plain_entry (absent : record.find? bound.camelName = none) :
    entry? record bound = record.find? bound.name := by
  simp only [absent, Option.none_or, entry?]

theorem Writes.limitFrom (writes : Writes record bound limit) (positive : 1 ≤ limit) :
    limitFrom record bound = .ok limit := by
  cases writes with
  | camel given => exact limitFrom_of_positive (camel_entry given) positive
  | plain absent given => exact limitFrom_of_positive ((plain_entry absent).trans given) positive
  | standard absent missing same => rw [limitFrom_absent record bound absent missing, same]

theorem Refuses.limitFrom (refuses : Refuses record bound) :
    limitFrom record bound = .error bound := by
  cases refuses with
  | camel given useless => exact limitFrom_of_useless (camel_entry given) useless
  | plain absent given useless =>
      exact limitFrom_of_useless ((plain_entry absent).trans given) useless

theorem writes_or_refuses (record : Record) (bound : Bound) :
    (∃ limit, 1 ≤ limit ∧ Writes record bound limit) ∨ Refuses record bound := by
  have sorted (value : Value) : (∃ limit, 1 ≤ limit ∧ value = .int limit) ∨ Useless value := by
    cases read : value.positive? with
    | some limit =>
        obtain ⟨spelled, positive⟩ := (value.positive?_eq_some_iff limit).mp read
        exact Or.inl ⟨limit, positive, spelled⟩
    | none => exact Or.inr (positive?_eq_none_iff.mp read)
  cases first : record.find? bound.camelName with
  | some value =>
      obtain ⟨limit, positive, rfl⟩ | useless := sorted value
      · exact Or.inl ⟨limit, positive, .camel first⟩
      · exact Or.inr (.camel first useless)
  | none =>
      cases second : record.find? bound.name with
      | some value =>
          obtain ⟨limit, positive, rfl⟩ | useless := sorted value
          · exact Or.inl ⟨limit, positive, .plain first second⟩
          · exact Or.inr (.plain first second useless)
      | none =>
          exact Or.inl ⟨_, limit_standard_pos bound, .standard first second rfl⟩

theorem limitFrom_eq_ok_iff :
    limitFrom record bound = .ok limit ↔ 1 ≤ limit ∧ Writes record bound limit := by
  constructor
  · intro read
    obtain ⟨other, positive, writes⟩ | refuses := writes_or_refuses record bound
    · rw [writes.limitFrom positive] at read
      cases read
      exact ⟨positive, writes⟩
    · rw [refuses.limitFrom] at read
      cases read
  · rintro ⟨positive, writes⟩
    exact writes.limitFrom positive

theorem Encodes.ofRecord (encodes : Encodes record limits) : ofRecord record = .ok limits := by
  have read (bound : Bound) : limitFrom record bound = .ok (limits.limit bound) :=
    limitFrom_eq_ok_iff.mpr ⟨encodes.positive bound, encodes.written bound⟩
  rw [Limits.ofRecord, read, read, read]
  rfl

theorem Blames.ofRecord (blames : Blames record bound) : ofRecord record = .error bound := by
  have refused := blames.refuses.limitFrom
  have passed (earlier : Bound) (member : earlier ∈ bound.before) :
      ∃ limit, limitFrom record earlier = .ok limit := by
    obtain ⟨limit, positive, writes⟩ :=
      (writes_or_refuses record earlier).resolve_right (blames.first earlier member)
    exact ⟨limit, writes.limitFrom positive⟩
  -- What is read before the bound has to pass for the bound to be read at all.
  cases bound with
  | length =>
      rw [Limits.ofRecord, refused]
      rfl
  | depth =>
      obtain ⟨maxLength, length⟩ := passed .length (by decide)
      rw [Limits.ofRecord, length, refused]
      rfl
  | nodes =>
      obtain ⟨maxLength, length⟩ := passed .length (by decide)
      obtain ⟨maxDepth, depth⟩ := passed .depth (by decide)
      rw [Limits.ofRecord, length, depth, refused]
      rfl

theorem encodes_of_not_refuses (kept : ∀ bound, ¬ Refuses record bound) :
    ∃ limits, Encodes record limits := by
  have writes (bound : Bound) := (writes_or_refuses record bound).resolve_right (kept bound)
  obtain ⟨maxLength, longer, length⟩ := writes .length
  obtain ⟨maxDepth, deeper, depth⟩ := writes .depth
  obtain ⟨maxNodes, more, nodes⟩ := writes .nodes
  refine ⟨⟨maxLength, maxDepth, maxNodes⟩, fun bound => ?_, fun bound => ?_⟩
  · cases bound <;> assumption
  · cases bound <;> assumption

theorem encodes_or_blames (record : Record) :
    (∃ limits, Encodes record limits) ∨ ∃ bound, Blames record bound := by
  by_cases length : Refuses record .length
  · exact Or.inr ⟨.length, length, by simp [Bound.before]⟩
  by_cases depth : Refuses record .depth
  · exact Or.inr ⟨.depth, depth, by simp [Bound.before, length]⟩
  by_cases nodes : Refuses record .nodes
  · exact Or.inr ⟨.nodes, nodes, by simp [Bound.before, length, depth]⟩
  · refine Or.inl (encodes_of_not_refuses fun bound => ?_)
    cases bound <;> assumption

theorem ofRecord_eq_ok_iff : ofRecord record = .ok limits ↔ Encodes record limits := by
  refine ⟨fun read => ?_, Encodes.ofRecord⟩
  obtain ⟨others, encodes⟩ | ⟨bound, blames⟩ := encodes_or_blames record
  · rw [encodes.ofRecord] at read
    cases read
    exact encodes
  · rw [blames.ofRecord] at read
    cases read

def written (limits : Limits) : Record :=
  [Bound.length, .depth, .nodes].map fun bound => (bound.camelName, .int (limits.limit bound))

theorem encodes_written (positive : ∀ bound, 1 ≤ limits.limit bound) :
    Encodes limits.written limits where
  positive := positive
  written bound := by cases bound <;> exact .camel (by rfl)

/-- The records that are read as limits are those that write them, all of them positive;
every positive limits are written by some record. Any other record is refused with the
camel case name of the first bound whose entry counts and is no integer of at least one. -/
theorem ofRecord_decodes :
    (∀ (record : Record) (limits : Limits),
      ofRecord record = .ok limits ↔ Encodes record limits) ∧
      (∀ limits : Limits,
        (∃ record, ofRecord record = .ok limits) ↔ ∀ bound, 1 ≤ limits.limit bound) ∧
      ∀ record : Record, (¬ ∃ limits, ofRecord record = .ok limits) →
        ∃ bound, Blames record bound ∧ (ofRecord record).mapError refusal =
          .error (bound.camelName ++ " must be a positive integer") := by
  refine ⟨fun record limits => ofRecord_eq_ok_iff, fun limits => ⟨?_, fun positive => ?_⟩,
    fun record useless => ?_⟩
  · rintro ⟨record, read⟩
    exact (ofRecord_eq_ok_iff.mp read).positive
  · exact ⟨limits.written, (encodes_written positive).ofRecord⟩
  · obtain ⟨limits, encodes⟩ | ⟨bound, blames⟩ := encodes_or_blames record
    · exact absurd ⟨limits, encodes.ofRecord⟩ useless
    · refine ⟨bound, blames, ?_⟩
      rw [blames.ofRecord]
      rfl

def doublyNamed : Record :=
  [("max_ast_nodes", .null), ("maxAstNodes", .int 30), ("max_ast_depth", .int 7),
    ("color", .text "red")]

def shadowed : Record :=
  [("max_expression_length", .int 10), ("max_ast_depth", .int 5), ("maxAstDepth", .null),
    ("maxAstNodes", .bool true)]

theorem ofRecord_decodes_shadowed :
    ofRecord doublyNamed = .ok ⟨4096, 7, 30⟩ ∧
      (¬ ∃ limits, ofRecord shadowed = .ok limits) ∧ Blames shadowed .depth ∧
      (ofRecord shadowed).mapError refusal = .error "maxAstDepth must be a positive integer" := by
  obtain ⟨decodes, -, refused⟩ := ofRecord_decodes
  have encodes : Encodes doublyNamed ⟨4096, 7, 30⟩ := by
    refine ⟨fun bound => by cases bound <;> decide, fun bound => ?_⟩
    cases bound with
    | length => exact .standard (by decide +kernel) (by decide +kernel) rfl
    | depth => exact .plain (by decide +kernel) rfl
    | nodes => exact .camel rfl
  have read : ofRecord shadowed = .error .depth := rfl
  have useless : ¬ ∃ limits, ofRecord shadowed = .ok limits := by
    rintro ⟨limits, accepted⟩
    cases accepted
  obtain ⟨bound, blames, told⟩ := refused shadowed useless
  obtain rfl : bound = .depth := Except.error.inj (blames.ofRecord.symm.trans read)
  exact ⟨(decodes _ _).mpr encodes, useless, blames, told⟩

end Limits

end PluralRule
