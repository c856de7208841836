import CodeMetrics.Text.Printable

/-!
# Quoted text

Text between apostrophes, or between double quotes when the text has an apostrophe and no double
quote. The delimiter and the backslash are escaped, and every character that is not printable is
written as an escape, so quoted text never holds a line break.
-/

namespace CodeMetrics

namespace Text

/-- The last `width` hexadecimal digits of a number, in lower case. -/
def hexDigits : Nat → Nat → List Char
  | 0, _ => []
  | width + 1, number => hexDigits width (number / 16) ++ [Nat.digitChar (number % 16)]

/-- The numeric escape of a code point, in the shortest of the widths two, four and eight. -/
def numericEscape (code : Nat) : List Char :=
  if code < 0x100 then '\\' :: 'x' :: hexDigits 2 code
  else if code < 0x10000 then '\\' :: 'u' :: hexDigits 4 code
  else '\\' :: 'U' :: hexDigits 8 code

/-- The delimiter that quotes the text with the fewest escapes, an apostrophe if possible. -/
def delimiterFor (characters : List Char) : Char :=
  if '\x27' ∈ characters ∧ '\x22' ∉ characters then '\x22' else '\x27'

/-- One character as it stands between two delimiters. -/
def quotedChar (delimiter character : Char) : List Char :=
  if character = delimiter ∨ character = '\\' then ['\\', character]
  else if character = '\n' then ['\\', 'n']
  else if character = '\r' then ['\\', 'r']
  else if character = '\t' then ['\\', 't']
  else if isPrintable character then [character]
  else numericEscape character.toNat

/-- The characters of the quoted form. -/
def quotedChars (characters : List Char) : List Char :=
  let delimiter := delimiterFor characters
  delimiter :: (characters.flatMap (quotedChar delimiter) ++ [delimiter])

/-- The text in quotes. -/
def quote (text : String) : String :=
  String.ofList (quotedChars text.toList)

end Text

end CodeMetrics
