import CodeMetrics.Settings.Placeholder
import CodeMetrics.Text.Blank
import CodeMetrics.Text.Lines

/-!
# Settings files

A settings file has one `name=value` a line, or a name alone, which then has no value. Lines may be
blank or comments; a value may be in quotes, with escapes, and else ends at a comment or the end of its
line. A line that is none of this is passed over. Values may refer to other variables by placeholders.
-/

namespace CodeMetrics

namespace EnvFile

/-- Blanks and separator controls. -/
def isSpacing (character : Char) : Bool :=
  Text.isBlank character || (0x1c ≤ character.toNat && character.toNat ≤ 0x1f)

/-- Spacing inside a line. -/
def isInline (character : Char) : Bool := isSpacing character && character != '\n'

/-- What follows the end of the line. -/
def nextLine (input : List Char) : List Char := (input.dropWhile (· != '\n')).drop 1

/-- What follows the word `export` and some spacing, if they are there. -/
def dropExport (input : List Char) : List Char :=
  if "export".toList.isPrefixOf input then
    let rest := input.drop 6
    if rest.head?.any isInline then rest.dropWhile isInline else input
  else input

/-- A name, in apostrophes or up to an equals sign, a comment or spacing, and what follows it. -/
def name? : List Char → Option (List Char × List Char)
  | '\x27' :: input =>
      let name := input.takeWhile (· != '\x27')
      match input.dropWhile (· != '\x27') with
      | '\x27' :: rest => if name.isEmpty then none else some (name, rest)
      | _ => none
  | input =>
      let ends (character : Char) : Bool :=
        character == '=' || character == '#' || isSpacing character
      let name := input.takeWhile fun character => !ends character
      if name.isEmpty then none else some (name, input.dropWhile fun character => !ends character)

/-- The text up to the closing quote, and what follows it. The character after a backslash does not
close it. -/
def quoted? (quote : Char) : List Char → Option (List Char × List Char)
  | [] => none
  | '\\' :: next :: input =>
      (quoted? quote input).map fun found => ('\\' :: next :: found.1, found.2)
  | character :: input =>
      if character = quote then some ([], input)
      else (quoted? quote input).map fun found => (character :: found.1, found.2)

/-- The text with its escapes read. -/
def unescape (escape : Char → Option Char) : List Char → List Char
  | [] => []
  | ['\\'] => ['\\']
  | '\\' :: character :: rest =>
      match escape character with
      | some meant => meant :: unescape escape rest
      | none => '\\' :: unescape escape (character :: rest)
  | character :: rest => character :: unescape escape rest

/-- The escapes between apostrophes. -/
def plainEscape (character : Char) : Option Char :=
  if character = '\\' ∨ character = '\x27' then some character else none

/-- The escapes between double quotes. -/
def fullEscape : Char → Option Char
  | '\\' => some '\\'
  | '\x27' => some '\x27'
  | '\x22' => some '\x22'
  | 'a' => some '\x07'
  | 'b' => some '\x08'
  | 'f' => some '\x0c'
  | 'n' => some '\n'
  | 'r' => some '\r'
  | 't' => some '\t'
  | 'v' => some '\x0b'
  | _ => none

/-- The text before a comment that spacing sets off. -/
def dropComment : List Char → List Char
  | [] => []
  | character :: rest =>
      if isSpacing character && (rest.dropWhile isSpacing).head? == some '#' then []
      else character :: dropComment rest

/-- The text without the spacing at its two ends. -/
def dropSpacing (text : List Char) : List Char :=
  ((text.dropWhile isSpacing).reverse.dropWhile isSpacing).reverse

/-- A value and what follows it. -/
def value? (input : List Char) : Option (List Char × List Char) :=
  match input.dropWhile isInline with
  | '\x27' :: rest =>
      (quoted? '\x27' rest).map fun found => (unescape plainEscape found.1, found.2)
  | '\x22' :: rest =>
      (quoted? '\x22' rest).map fun found => (unescape fullEscape found.1, found.2)
  | _ =>
      some (dropSpacing (dropComment (input.takeWhile (· != '\n'))), input.dropWhile (· != '\n'))

/-- Nothing but spacing and a comment is left on the line. -/
def endsLine (input : List Char) : Bool :=
  match input.dropWhile isInline with
  | [] => true
  | character :: _ => character == '\n' || character == '#'

/-- The setting that a line begins, if it does, and what follows it. -/
def setting (input : List Char) : Option (String × Option String) × List Char :=
  match name? (dropExport input) with
  | none => (none, nextLine input)
  | some (name, afterName) =>
      match afterName.dropWhile isInline with
      | '=' :: afterSign =>
          match value? afterSign with
          | none => (none, nextLine afterSign)
          | some (value, rest) =>
              (if endsLine rest then some (String.ofList name, some (String.ofList value)) else none,
                nextLine rest)
      | rest =>
          (if endsLine rest then some (String.ofList name, none) else none, nextLine rest)

/-- The settings of a text, at most `count` lines of it. -/
def settings : Nat → List Char → List (String × Option String)
  | 0, _ => []
  | count + 1, input =>
      match input.dropWhile isSpacing with
      | [] => []
      | start =>
          let found := setting start
          found.1.toList ++ settings count found.2

/-- The settings of a file as written, in order. -/
def read (text : String) : List (String × Option String) :=
  let input := Text.unifyLineEnds text.toList
  settings input.length input

/-- The variables of a file and, behind them, of an environment. -/
def inSight (environment : List (String × String)) (file : List (String × Option String)) :
    Variables := fun name =>
  (Value.get? name file).or ((Value.get? name environment).map some)

/-- The settings with their placeholders resolved, each name once and with its last value. A
placeholder refers to the lines above it first, then to the environment. -/
def resolve (environment : List (String × String)) (file : List (String × Option String)) :
    List (String × Option String) :=
  file.foldl (fun found entry =>
    Value.put entry.1 (entry.2.map (Placeholder.expand (inSight environment found))) found) []

end EnvFile

end CodeMetrics
