import CodeMetrics.Record.Value

/-!
# Placeholders

A value of a settings file may refer to variables: a placeholder is a name in braces behind a dollar
sign, with a fallback behind `:-` if there is one. It stands for the value of the variable, for the
fallback if there is no such variable, and for nothing if the variable has no value.
-/

namespace CodeMetrics

/-- The variables in sight. A variable may be there without a value. -/
abbrev Variables := String → Option (Option String)

namespace Placeholder

/-- The text that stands for a variable. -/
def resolve (scope : Variables) (name fallback : List Char) : List Char :=
  match scope (String.ofList name) with
  | some (some value) => value.toList
  | some none => []
  | none => fallback

/-- The text that stands for the placeholder whose braces open before the input, and the number of
characters up to its end. -/
def read? (scope : Variables) (input : List Char) : Option (List Char × Nat) :=
  let name := input.takeWhile fun character => character != '\x7d' && character != ':'
  match input.drop name.length with
  | '\x7d' :: _ => some (resolve scope name [], name.length + 1)
  | ':' :: '-' :: rest =>
      let fallback := rest.takeWhile (· != '\x7d')
      if fallback.length < rest.length then
        some (resolve scope name fallback, name.length + fallback.length + 3)
      else none
  | _ => none

/-- The text with its placeholders resolved, after the first `passed` characters. -/
def expandFrom (scope : Variables) : Nat → List Char → List Char
  | _, [] => []
  | passed + 1, _ :: input => expandFrom scope passed input
  | 0, '$' :: '\x7b' :: input =>
      match read? scope input with
      | some (text, width) => text ++ expandFrom scope (width + 1) ('\x7b' :: input)
      | none => '$' :: expandFrom scope 0 ('\x7b' :: input)
  | 0, character :: input => character :: expandFrom scope 0 input

/-- The text with its placeholders resolved. -/
def expand (scope : Variables) (text : String) : String :=
  String.ofList (expandFrom scope 0 text.toList)

end Placeholder

end CodeMetrics
