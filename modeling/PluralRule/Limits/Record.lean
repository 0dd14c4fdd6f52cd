import PluralRule.Value

/-!
Limits from a record. Every bound has two names; the camel case one counts
wherever it is present, whatever its value. Main statement: a bound without an
entry keeps its standard limit.
-/

namespace PluralRule.Limits

def entry? (record : Record) (bound : Bound) : Option Value :=
  (record.find? bound.camelName).or (record.find? bound.name)

def limitFrom (record : Record) (bound : Bound) : Except Bound Int :=
  match entry? record bound with
  | none => .ok (standard.limit bound)
  | some value =>
      match value.positive? with
      | some limit => .ok limit
      | none => .error bound

def ofRecord (record : Record) : Except Bound Limits := do
  let maxLength ← limitFrom record .length
  let maxDepth ← limitFrom record .depth
  let maxNodes ← limitFrom record .nodes
  pure { maxLength, maxDepth, maxNodes }

def refusal (bound : Bound) : String := bound.camelName ++ " must be a positive integer"

theorem limitFrom_absent (record : Record) (bound : Bound)
    (camel : record.find? bound.camelName = none) (plain : record.find? bound.name = none) :
    limitFrom record bound = .ok (standard.limit bound) := by
  simp [limitFrom, entry?, camel, plain]

end PluralRule.Limits
