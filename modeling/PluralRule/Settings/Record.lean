import PluralRule.Settings
import PluralRule.Text.Numeral

/-!
A decoder of records. A truth value counts as an integer and so does a numeral,
and all fields that are not accepted are rejected together.
-/

namespace PluralRule

inductive Rejection.Cause where
  | noText
  | noInteger
  | noNumeral (issue : Text.Numeral.Issue)
  | fractional
  | tooSmall
  | invalid (message : String)
  deriving DecidableEq, Repr

namespace Rejection.Cause

def kind : Rejection.Cause → String
  | .noText => "string_type"
  | .noInteger => "int_type"
  | .noNumeral .malformed => "int_parsing"
  | .noNumeral .oversized => "int_parsing_size"
  | .fractional => "int_from_float"
  | .tooSmall => "greater_than_equal"
  | .invalid _ => "value_error"

def message : Rejection.Cause → String
  | .noText => "Input should be a valid string"
  | .noInteger => "Input should be a valid integer"
  | .noNumeral .malformed =>
      "Input should be a valid integer, unable to parse string as an integer"
  | .noNumeral .oversized =>
      "Unable to parse input string as an integer, exceeded maximum size"
  | .fractional => "Input should be a valid integer, got a number with a fractional part"
  | .tooSmall => "Input should be greater than or equal to 1"
  | .invalid message => "Value error, " ++ message

end Rejection.Cause

namespace Settings

def pluralFrom : Option Value → Except Rejection.Cause String
  | none => .ok ""
  | some (.text plural) => .ok plural
  | some _ => .error .noText

/-- The integer that a value is read as: truth values are one and zero, a text
has to be a numeral, a decimal has to be an integer. -/
def integerFrom : Value → Except Rejection.Cause Int
  | .int value => .ok value
  | .bool value => .ok (if value then 1 else 0)
  | .decimal mantissa places =>
      let unit : Int := Nat.pow 10 places
      if mantissa % unit = 0 then .ok (mantissa / unit) else .error .fractional
  | .text text =>
      match Text.Numeral.read text with
      | .ok value => .ok value
      | .error issue => .error (.noNumeral issue)
  | _ => .error .noInteger

def countFrom : Option Value → Except Rejection.Cause Int
  | none => .ok Selector.standardCount
  | some value =>
      match integerFrom value with
      | .ok count => if count < 1 then .error .tooSmall else .ok count
      | .error cause => .error cause

def grantFrom : Option Value → Except Rejection.Cause (Option Limits)
  | none => .ok none
  | some value => (limitsFrom value).mapError .invalid

def rejectionOf {Result : Type} (field : String) : Except Rejection.Cause Result → List Rejection
  | .ok _ => []
  | .error cause => [⟨field, cause.kind, cause.message⟩]

def ofRecord : Decoder := fun record =>
  let limitsName := limitsName record
  let limits := grantFrom (record.find? limitsName)
  let count := countFrom (record.find? countName)
  let plural := pluralFrom (record.find? pluralName)
  match limits, count, plural with
  | .ok limits, .ok count, .ok plural =>
      .ok {
        plural
        count := .int count
        limits
        extra := record.without [pluralName, countName, limitsName] }
  | _, _, _ =>
      .error (rejectionOf limitsName limits ++ rejectionOf countName count ++
        rejectionOf pluralName plural)

end Settings

end PluralRule
