import PluralRule.Text.Writing

/-!
Quoted text: how a text value is shown inside a message. It stands between
single quotes; characters that the process does not show are written by their
code point, with as few hexadecimal digits as two, four or eight allow.
-/

namespace PluralRule.Text

def hexadecimal (width number : Nat) : List Char :=
  let digits := Nat.toDigits 16 number
  List.replicate (width - digits.length) '0' ++ digits

def codePointEscape (code : Nat) : List Char :=
  if code < 0x100 then '\\' :: 'x' :: hexadecimal 2 code
  else if code < 0x10000 then '\\' :: 'u' :: hexadecimal 4 code
  else '\\' :: 'U' :: hexadecimal 8 code

def quotedCharacter [Writing] (quote character : Char) : List Char :=
  if character = quote ∨ character = '\\' then ['\\', character]
  else if character = '\n' then ['\\', 'n']
  else if character = '\r' then ['\\', 'r']
  else if character = '\t' then ['\\', 't']
  else if Writing.isInvisible character then codePointEscape character.toNat
  else [character]

/-- Double quotes stand around a text that holds a single quote and no double one. -/
def quoteOf (characters : List Char) : Char :=
  if '\'' ∈ characters ∧ '"' ∉ characters then '"' else '\''

def quoted [Writing] (text : String) : String :=
  let quote := quoteOf text.toList
  String.ofList (quote :: text.toList.flatMap (quotedCharacter quote) ++ [quote])

end PluralRule.Text
