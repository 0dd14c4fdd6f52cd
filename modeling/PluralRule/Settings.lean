import PluralRule.Limits.Record
import PluralRule.Selector

/-!
Settings: what a selector is compiled from. They are decoded from records, which
a library does that is told the fields, their standard values and how the
limits are to be read. Names that mean nothing here are kept.
-/

namespace PluralRule

structure Settings where
  plural : String := ""
  /-- An integer of at least one after decoding; it may be replaced by any value. -/
  count : Value := .int Selector.standardCount
  limits : Option Limits := none
  extra : Record := []
  deriving Repr

structure Rejection where
  field : String
  kind : String
  message : String
  deriving DecidableEq, Repr

abbrev Decoder := Record → Except (List Rejection) Settings

namespace Settings

def pluralName : String := "plural"

def countName : String := "nplurals"

/-- The two names of the limits; the first counts wherever it is present. -/
def limitsNames : String × String := ("expressionLimits", "expression_limits")

def limitsName (record : Record) : String :=
  if (record.find? limitsNames.1).isSome then limitsNames.1 else limitsNames.2

/-- What the entry for the limits is read as before anything else is made of it, or
what is wrong with it. -/
def limitsFrom : Value → Except String (Option Limits)
  | .null => .ok none
  | .limits limits => .ok (some limits)
  | .record record =>
      match Limits.ofRecord record with
      | .ok limits => .ok (some limits)
      | .error bound => .error (Limits.refusal bound)
  | _ => .error "expressionLimits must be a mapping or ExpressionLimits"

def selector (settings : Settings) : Recorded (Except Objection Selector) :=
  Selector.compile (settings.limits.getD Limits.standard) settings.plural settings.count

end Settings

end PluralRule
