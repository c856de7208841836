import CodeMetrics.Number.Binary64
import CodeMetrics.Text.Quoted

/-!
# Loosely typed values

Values as they come from a settings source, a caller or a log call. The entries of an object keep the
order of their first appearance. A value is written in two ways: as a literal, for people, and as JSON.
-/

namespace CodeMetrics

/-- A loosely typed value. -/
inductive Value where
  | null
  | boolean (value : Bool)
  | integer (value : Int)
  | real (value : Binary64)
  | text (value : String)
  | list (items : List Value)
  | object (entries : List (String × Value))

namespace Value

/-- Set the value of a key, in place if the key is there already. -/
def put {α : Type} (key : String) (value : α) : List (String × α) → List (String × α)
  | [] => [(key, value)]
  | entry :: entries =>
      if entry.1 = key then (key, value) :: entries else entry :: put key value entries

/-- The value of a key. -/
def get? {α : Type} (key : String) (entries : List (String × α)) : Option α :=
  (entries.find? fun entry => entry.1 == key).map Prod.snd

theorem get?_put {α : Type} (key other : String) (value : α) (entries : List (String × α)) :
    get? other (put key value entries) = if other = key then some value else get? other entries := by
  induction entries with
  | nil => grind [put, get?]
  | cons entry entries induction => grind [put, get?]

/-! ## Literals -/

mutual

/-- The value as a literal. -/
def literal : Value → String
  | .null => "None"
  | .boolean true => "True"
  | .boolean false => "False"
  | .integer value => toString value
  | .real value => value.render "inf" "nan"
  | .text value => Text.quote value
  | .list items => "[" ++ literals items ++ "]"
  | .object entries => "\x7b" ++ entryLiterals entries ++ "\x7d"

/-- The literals of a list, separated. -/
def literals : List Value → String
  | [] => ""
  | [item] => item.literal
  | item :: next :: items => item.literal ++ ", " ++ literals (next :: items)

/-- The literals of the entries, separated. -/
def entryLiterals : List (String × Value) → String
  | [] => ""
  | [(key, item)] => Text.quote key ++ ": " ++ item.literal
  | (key, item) :: next :: entries =>
      Text.quote key ++ ": " ++ item.literal ++ ", " ++ entryLiterals (next :: entries)

end

/-! ## JSON -/

/-- The escape of one UTF-16 unit. -/
def unitEscape (unit : Nat) : List Char := '\\' :: 'u' :: Text.hexDigits 4 unit

/-- One character inside a JSON string, in ASCII. -/
def jsonChar (character : Char) : List Char :=
  let code := character.toNat
  if character = '\x22' then ['\\', '\x22']
  else if character = '\\' then ['\\', '\\']
  else if character = '\n' then ['\\', 'n']
  else if character = '\r' then ['\\', 'r']
  else if character = '\t' then ['\\', 't']
  else if character = '\x0c' then ['\\', 'f']
  else if character = '\x08' then ['\\', 'b']
  else if 0x20 ≤ code ∧ code < 0x7f then [character]
  else if code < 0x10000 then unitEscape code
  else unitEscape (0xd800 + (code - 0x10000) / 0x400) ++ unitEscape (0xdc00 + (code - 0x10000) % 0x400)

/-- A JSON string. -/
def jsonText (text : String) : String :=
  "\x22" ++ String.ofList (text.toList.flatMap jsonChar) ++ "\x22"

mutual

/-- The value as JSON. -/
def json : Value → String
  | .null => "null"
  | .boolean true => "true"
  | .boolean false => "false"
  | .integer value => toString value
  | .real value => value.render "Infinity" "NaN"
  | .text value => jsonText value
  | .list items => "[" ++ jsonItems items ++ "]"
  | .object entries => "\x7b" ++ jsonEntries entries ++ "\x7d"

/-- The items of a JSON list, separated. -/
def jsonItems : List Value → String
  | [] => ""
  | [item] => item.json
  | item :: next :: items => item.json ++ ", " ++ jsonItems (next :: items)

/-- The entries of a JSON object, separated. -/
def jsonEntries : List (String × Value) → String
  | [] => ""
  | [(key, item)] => jsonText key ++ ": " ++ item.json
  | (key, item) :: next :: entries =>
      jsonText key ++ ": " ++ item.json ++ ", " ++ jsonEntries (next :: entries)

end

end Value

end CodeMetrics
