import PluralRule.Limits
import PluralRule.Number
import PluralRule.Text.Quoted

/-!
Plain values: the loosely typed data that settings, quantities and form counts
are given as before they are checked, with the name of their type and their
printed form in messages.
-/

namespace PluralRule

inductive Value where
  | null
  | bool (value : Bool)
  | int (value : Int)
  /-- The number `mantissa / 10 ^ places`, written with a decimal point. -/
  | decimal (mantissa : Int) (places : Nat)
  | text (value : String)
  | list (items : List Value)
  | record (fields : List (String × Value))
  | limits (value : Limits)
  deriving Repr, Inhabited

/-- Named values; of two entries with one name the first counts. -/
abbrev Record := List (String × Value)

def Record.find? (record : Record) (name : String) : Option Value := record.lookup name

def Record.without (record : Record) (names : List String) : Record :=
  record.filter fun field => field.1 ∉ names

namespace Value

def typeName : Value → String
  | .null => "NoneType"
  | .bool _ => "bool"
  | .int _ => "int"
  | .decimal .. => "float"
  | .text _ => "str"
  | .list _ => "list"
  | .record _ => "dict"
  | .limits _ => "ExpressionLimits"

/-- The digits with the point behind the first `point` of them, and zeros where digits
are missing. -/
def positional (digits : List Char) (point : Int) : List Char :=
  let filled := List.replicate (1 - point).toNat '0' ++ digits
  let whole := max 1 point.toNat
  let fraction := if filled.length ≤ whole then ['0'] else filled.drop whole
  filled.take whole ++ List.replicate (whole - filled.length) '0' ++ '.' :: fraction

/-- The digits with the point behind the first one, and the power of ten that makes up for it. -/
def scientific (digits : List Char) (point : Int) : List Char :=
  let power := Nat.toDigits 10 (point - 1).natAbs
  let fraction := if digits.length ≤ 1 then [] else '.' :: digits.drop 1
  digits.take 1 ++ fraction ++ ['e', if point < 1 then '-' else '+'] ++
    List.replicate (2 - power.length) '0' ++ power

/-- A decimal is written positionally unless its point is far from its digits. -/
def decimalText (mantissa : Int) (places : Nat) : String :=
  let digits := Nat.toDigits 10 mantissa.natAbs
  let kept := (digits.reverse.dropWhile (· = '0')).reverse
  let point : Int := if mantissa = 0 then 1 else digits.length - places
  let near : Bool := -4 < point && point ≤ 16
  (if mantissa < 0 then "-" else "") ++
    String.ofList (if near then positional kept point else scientific kept point)

section

variable [Writing]

def limitsText (limits : Limits) : Option String := do
  let field (bound : Bound) : Option String :=
    (Text.written? (limits.limit bound)).map (bound.name ++ "=" ++ ·)
  let fields ← [Bound.length, Bound.depth, Bound.nodes].mapM field
  some ("ExpressionLimits(" ++ ", ".intercalate fields ++ ")")

mutual

def printed : Value → Option String
  | .null => some "None"
  | .bool value => some (Text.truthText value)
  | .int value => Text.written? value
  | .decimal mantissa places => some (decimalText mantissa places)
  | .text value => some (Text.quoted value)
  | .list items => (printedItems items).map fun texts => "[" ++ ", ".intercalate texts ++ "]"
  | .record fields =>
      (printedFields fields).map fun texts => "\x7b" ++ ", ".intercalate texts ++ "\x7d"
  | .limits value => limitsText value

def printedItems : List Value → Option (List String)
  | [] => some []
  | item :: rest => do
      let text ← item.printed
      let texts ← printedItems rest
      some (text :: texts)

def printedFields : List (String × Value) → Option (List String)
  | [] => some []
  | (name, value) :: rest => do
      let text ← value.printed
      let texts ← printedFields rest
      some ((Text.quoted name ++ ": " ++ text) :: texts)

end

end

/-- Truth values are no integers. -/
def asInteger? : Value → Option Int
  | .int value => some value
  | _ => none

def positive? (value : Value) : Option Int :=
  value.asInteger?.filter (1 ≤ ·)

theorem asInteger?_eq_some_iff (value : Value) (number : Int) :
    value.asInteger? = some number ↔ value = .int number := by
  cases value <;> simp [asInteger?]

theorem positive?_eq_some_iff (value : Value) (number : Int) :
    value.positive? = some number ↔ value = .int number ∧ 1 ≤ number := by
  simp [positive?, Option.filter_eq_some_iff, asInteger?_eq_some_iff]

end Value

end PluralRule
