import CodeMetrics.Log.Event
import CodeMetrics.Settings.Settings

/-!
# Writing the log

A log shows events from a lowest rank up, one a line: as JSON, or for people with the values of an
event behind its message in the order of their names. For people, the name of the logger stands before
the other values and traces stand on lines of their own.
-/

namespace CodeMetrics

/-- How the log is written. -/
structure LogFormat where
  asJson : Bool
  /-- The lowest rank that is shown. -/
  minimum : Nat
deriving DecidableEq, Repr

/-- Why the log cannot be set up or written. -/
inductive LogError where
  | unknownLevel (name : String)
  | rejected (rejection : Rejection)
  /-- A trace is of the named type and not text. -/
  | traceNotText (type : String)

/-- The wording of a failure. -/
def LogError.message : LogError → String
  | .unknownLevel name => "Unknown log level: " ++ name
  | .rejected rejection => rejection.record
  | .traceNotText type => "can only concatenate str (not \x22" ++ type ++ "\x22) to str"

namespace LogFormat

/-- The upper case of a character, in so far as it is ASCII. Beside the ASCII letters, two characters
have a single ASCII letter as their upper case. -/
def upper (character : Char) : Char :=
  if character = 'ı' then 'I' else if character = 'ſ' then 'S' else character.toUpper

/-- The rank that a level name stands for. -/
def rank? (name : String) : Option Nat :=
  match String.ofList (name.toList.map upper) with
  | "CRITICAL" | "FATAL" => some 50
  | "ERROR" => some 40
  | "WARNING" | "WARN" => some 30
  | "INFO" => some 20
  | "DEBUG" => some 10
  | "NOTSET" => some 0
  | _ => none

/-- The format asked for. Output that goes to no terminal is JSON unless it is asked not to be, and
debugging shows everything from its own rank up, whatever the level. -/
def configure (json : Option Bool) (debug : Bool) (level : String) : Except LogError LogFormat :=
  let asJson := json.getD true
  if debug then .ok ⟨asJson, Level.debug.rank⟩
  else
    match rank? level with
    | some minimum => .ok ⟨asJson, minimum⟩
    | none => .error (.unknownLevel level)

/-- The format that the settings ask for. -/
def ofSettings (settings : Settings) : Except LogError LogFormat :=
  configure settings.jsonLogs false settings.logLevel

/-! ## Lines -/

/-- The fields of an event with the name of its component first. -/
def withComponent (component : Option String) (fields : List (String × Value)) :
    List (String × Value) :=
  let bound := match component with
    | some name => if name.isEmpty then [] else [("component", Value.text name)]
    | none => []
  fields.foldl (fun entries field => Value.put field.1 field.2 entries) bound

/-- The fields that ask for a trace. There is none to show, and they are not shown themselves. -/
def requests : List String := ["exc_info", "stack_info"]

/-- Everything that is shown of an event: its fields, the message, the level and the time, each name
once. -/
def entries (time : String) (event : Event) : List (String × Value) :=
  let named := Value.put "event" (.text event.message) event.fields
  let ranked := Value.put "level" (.text event.level.name) named
  (Value.put "timestamp" (.text time) ranked).filter fun entry => entry.1 ∉ requests

/-- The event as one JSON object. -/
def jsonLine (time : String) (event : Event) : String := Value.json (.object (entries time event))

/-- Text that can stand for itself behind an equals sign. -/
def isBare (text : String) : Bool :=
  !text.toList.any fun character => character ∈ [' ', '\t', '=', '\r', '\n', '\x22', '\x27']

/-- A value behind an equals sign. -/
def shown : Value → String
  | .text text => if isBare text then text else Text.quote text
  | value => value.literal

/-- The text filled up with spaces to a width. -/
def padTo (width : Nat) (text : String) : String :=
  text ++ String.ofList (List.replicate (width - text.length) ' ')

/-- The text without the spaces at its end. -/
def dropSpaces (text : String) : String :=
  String.ofList (text.toList.reverse.dropWhile (· == ' ')).reverse

/-- A value behind its name. -/
def pair (entry : String × Value) : String := entry.1 ++ "=" ++ shown entry.2

/-- A value in brackets, without quotes. -/
def bracketed : Value → String
  | .text text => "[" ++ text ++ "]"
  | value => "[" ++ value.literal ++ "]"

/-- The names that have a place of their own on the line, or stand below it. -/
def placed : List String :=
  ["", "timestamp", "level", "event", "logger", "logger_name", "stack", "exception"]

/-- The line of an event: a value without a name, the time, the level, the message, the names of the
logger, and all other values in the order of their names. -/
def headLine (time : String) (event : Event) : String :=
  let all := entries time event
  let others := (all.filter fun entry => entry.1 ∉ placed).mergeSort fun left right => left.1 ≤ right.1
  let column (name : String) (written : Value → String) : List String :=
    ((Value.get? name all).map written).toList
  dropSpaces (String.intercalate " "
    (column "" (fun value => pair ("", value)) ++
      [time, "[" ++ padTo 9 event.level.name ++ "]", padTo 30 event.message] ++
      column "logger" bracketed ++ column "logger_name" bracketed ++ others.map pair))

/-- The type of a value, as it is called in a complaint. -/
def typeName : Value → String
  | .null => "NoneType"
  | .boolean _ => "bool"
  | .integer _ => "int"
  | .real _ => "float"
  | .text _ => "str"
  | .list _ => "list"
  | .object _ => "dict"

/-- The text of a trace, if the event has it. -/
def trace? (event : Event) (name : String) : Except LogError (Option String) :=
  match Value.get? name event.fields with
  | none => .ok none
  | some .null => .ok none
  | some (.text text) => .ok (some text)
  | some value => .error (.traceNotText (typeName value))

/-- The line that divides two traces. -/
def ruler : String := String.ofList (List.replicate 79 '=')

/-- The event for people: its line and, below it, the stack and the failure. -/
def consoleLines (time : String) (event : Event) : Except LogError String := do
  let stack ← trace? event "stack"
  let failure ← trace? event "exception"
  let head := headLine time event
  match stack, failure with
  | none, none => return head
  | some stack, none => return head ++ "\n" ++ stack
  | none, some failure => return head ++ "\n" ++ failure
  | some stack, some failure =>
      return head ++ "\n" ++ stack ++ "\n\n" ++ ruler ++ "\n\n" ++ failure

/-- What the log shows of an event: a text that ends its line, or nothing. -/
def write (format : LogFormat) (time : String) (event : Event) : Except LogError String :=
  if event.level.rank < format.minimum then .ok ""
  else if format.asJson then .ok (jsonLine time event ++ "\n")
  else (consoleLines time event).map (· ++ "\n")

end LogFormat

end CodeMetrics
