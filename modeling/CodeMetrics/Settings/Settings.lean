import CodeMetrics.Cognitive.Declaration
import CodeMetrics.Settings.EnvFile

/-!
# Settings

Each setting is taken from the first source that has it: the caller's arguments, the environment, the
settings file, the default. In the environment and in the file, names have a common beginning. The case
of the letters of a name does not matter.
-/

namespace CodeMetrics

/-- The settings of an analysis. -/
structure Settings where
  threshold : Nat
  propertyThreshold : Nat
  ignoreHeaderComments : Bool
  logLevel : String
  /-- Write the log as JSON; nothing if that depends on where it goes. -/
  jsonLogs : Option Bool
deriving DecidableEq, Repr

namespace Settings

/-- The name of the record. -/
def recordName : String := "AnalyzerSettings"

/-- The names of the settings. -/
def names : List String :=
  ["threshold", "property_threshold", "ignore_header_comments", "log_level", "json_logs"]

/-- Settings from the fields of a record. -/
def read (entries : List (String × Value)) : Checked Settings :=
  ((Reader.optional entries "threshold" 15 Reader.natural).map Settings.mk).ap
    (Reader.optional entries "property_threshold" 3 Reader.natural)
    |>.ap (Reader.optional entries "ignore_header_comments" false Reader.boolean)
    |>.ap (Reader.optional entries "log_level" "INFO" Reader.text)
    |>.ap (Reader.optional entries "json_logs" none Reader.optionalBoolean)

/-- The thresholds that the settings give. -/
def thresholds (settings : Settings) : Thresholds :=
  ⟨settings.threshold, settings.propertyThreshold⟩

/-- The beginning of the names of settings outside the program, in lower case. -/
def outerStart : String := "sharpmetrics_"

/-- The last value under the outer name of a setting, in any case of its letters. The names have no
letter that anything but an ASCII letter has as its lower case. -/
def outerValue? {α : Type} (source : List (String × α)) (name : String) : Option α :=
  (source.reverse.find? fun entry => entry.1.toLower == outerStart ++ name).map Prod.snd

/-- The argument for a setting: under its very name, or else in another case of its letters. -/
def argument? (arguments : List (String × Value)) (name : String) : Option Value :=
  (Value.get? name arguments).or
    ((arguments.find? fun entry => entry.1.toLower == name).map Prod.snd)

/-- The value of a setting from the first source that has it. -/
def given? (arguments : List (String × Value)) (environment : List (String × String))
    (file : List (String × Option String)) (name : String) : Option Value :=
  (argument? arguments name).or
    (((outerValue? environment name).or (outerValue? file name).join).map .text)

/-- The values of the settings that some source has. -/
def gather (arguments : List (String × Value)) (environment : List (String × String))
    (file : List (String × Option String)) : List (String × Value) :=
  names.filterMap fun name => (given? arguments environment file name).map fun value => (name, value)

/-- The settings from all sources. -/
def load (arguments : List (String × Value)) (environment : List (String × String))
    (file : List (String × Option String)) : Except Rejection Settings :=
  (read (gather arguments environment (EnvFile.resolve environment file))).close recordName

end Settings

/-- The outer sources of settings, and the settings kept from the last time they were asked for. -/
structure SettingsStore where
  environment : List (String × String)
  /-- The settings file as written. -/
  file : List (String × Option String)
  kept : Option Settings

namespace SettingsStore

/-- Set a variable of the environment. -/
def setVariable (store : SettingsStore) (name value : String) : SettingsStore :=
  { store with environment := Value.put name value store.environment }

/-- Remove a variable from the environment. -/
def unsetVariable (store : SettingsStore) (name : String) : SettingsStore :=
  { store with environment := store.environment.filter fun entry => entry.1 != name }

/-- Forget the settings kept. -/
def forget (store : SettingsStore) : SettingsStore := { store with kept := none }

/-- Settings made anew. -/
def make (store : SettingsStore) (arguments : List (String × Value)) : Except Rejection Settings :=
  Settings.load arguments store.environment store.file

/-- The settings kept, or else new ones, which are kept unless they are refused. -/
def get (store : SettingsStore) : Except Rejection Settings × SettingsStore :=
  match store.kept with
  | some settings => (.ok settings, store)
  | none =>
      match store.make [] with
      | .ok settings => (.ok settings, { store with kept := some settings })
      | .error rejection => (.error rejection, store)

end SettingsStore

end CodeMetrics
