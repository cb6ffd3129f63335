import TypeAtlas.Log.Printing
import TypeAtlas.Settings.EnvFile
import TypeAtlas.Validation.Field
import TypeAtlas.Json.Reader

/-!
# Settings

Settings come from three places: values that are given, the environment and a file; what is given
first counts, and what is not given at all has a default.  In the environment and in the file the
name of a setting has a beginning of its own and may be in any case; a value there is a text, and
the one setting that is a list is read as a document.
-/

namespace TypeAtlas

/-- The settings of the program. -/
@[ext]
structure Settings where
  logLevel : String := "INFO"
  logFormat : LogFormat := .console
  forcePortable : Bool := false
  maxWorkers : Nat := 1
  ignoredDirs : List String := ["node_modules", "dist", "build", ".git"]
  defaultDiffRef : String := "HEAD~1"
  hookRef : String := "HEAD"
  maxWorkers_pos : 0 < maxWorkers := by decide

instance : DecidableEq Settings := fun _ _ => decidable_of_iff _ Settings.ext_iff.symm

/-- The places where settings are looked up by name. -/
inductive SettingsSource where
  | environment | file
  deriving Repr, DecidableEq

def SettingsSource.name : SettingsSource → String
  | .environment => "EnvSettingsSource"
  | .file => "DotEnvSettingsSource"

/-- Why there are no settings. -/
inductive SettingsFault where
  /-- A setting that should be a document is none. -/
  | unreadable (field : String) (source : SettingsSource)
  /-- The file is no text. -/
  | undecodable (message : String)
  /-- Settings are not what they should be. -/
  | invalid (report : ValidationReport)
  deriving Repr

def SettingsFault.message : SettingsFault → String
  | .unreadable field source =>
    "error parsing value for field \"" ++ field ++ "\" from source \"" ++ source.name ++ "\""
  | .undecodable message => message
  | .invalid report => report.render

def LogFormat.ofName? (name : String) : Option LogFormat :=
  [LogFormat.console, .json].find? fun format => format.name == name

def Field.logFormat : Json → Checked LogFormat :=
  Field.literal LogFormat.ofName? [LogFormat.console.name, LogFormat.json.name]

namespace Settings

def defaults : Settings := {}

def fields (settings : Settings) : List (String × Json) :=
  [("log_level", .str settings.logLevel), ("log_format", .str settings.logFormat.name),
    ("force_portable", .bool settings.forcePortable), ("max_workers", .ofNat settings.maxWorkers),
    ("ignored_dirs", .ofStrings settings.ignoredDirs),
    ("default_diff_ref", .str settings.defaultDiffRef), ("hook_ref", .str settings.hookRef)]

/-- The settings that fields stand for.  Fields that are no settings are ignored. -/
def ofFields (fields : List (String × Json)) : Checked Settings :=
  ((((((Field.optional fields ["log_level"] defaults.logLevel Field.text).both
    (Field.optional fields ["log_format"] defaults.logFormat Field.logFormat)).both
    (Field.optional fields ["force_portable"] defaults.forcePortable Field.switch)).both
    (Field.optional fields ["max_workers"] ⟨defaults.maxWorkers, defaults.maxWorkers_pos⟩
      Field.positive)).both
    (Field.optional fields ["ignored_dirs"] defaults.ignoredDirs
      (Field.array .notTuple Field.text))).both
    (Field.optional fields ["default_diff_ref"] defaults.defaultDiffRef Field.text)).both
    (Field.optional fields ["hook_ref"] defaults.hookRef Field.text) |>.map
      fun ((((((logLevel, logFormat), forcePortable), maxWorkers), ignoredDirs), defaultDiffRef),
          hookRef) =>
        ⟨logLevel, logFormat, forcePortable, maxWorkers.count, ignoredDirs, defaultDiffRef, hookRef,
          maxWorkers.pos⟩

/-- The settings that fields stand for, or why they stand for none. -/
def check (fields : List (String × Json)) : Except SettingsFault Settings :=
  ((ofFields fields).titled "Settings").mapError .invalid

def documentField : String := "ignored_dirs"

/-- The settings that are texts in the environment: all others. -/
def textFields : List String :=
  (defaults.fields.map (·.1)).filter fun field => field != documentField

/-- The name of a setting in the environment, in small letters. -/
def variableName (field : String) : String := "depgraph_" ++ field

/-- The last value of a name in any case. -/
def bindingOf? (bindings : List EnvFile.Binding) (name : String) : Option String :=
  (bindings.reverse.find? fun binding => Text.lowerAscii binding.1 == name).bind (·.2)

/-- The setting that is a document, if a place has it; the document `null` counts as none. -/
def documentFields (source : SettingsSource) (bindings : List EnvFile.Binding) :
    Except SettingsFault (List (String × Json)) :=
  match bindingOf? bindings (variableName documentField) with
  | none => .ok []
  | some text =>
    match Json.readText .generous text with
    | .ok .null => .ok []
    | .ok value => .ok [(documentField, value)]
    | .error _ => .error (.unreadable documentField source)

def fieldsOf (source : SettingsSource) (bindings : List EnvFile.Binding) :
    Except SettingsFault (List (String × Json)) :=
  (documentFields source bindings).map fun document =>
    document ++ textFields.filterMap fun field =>
      (bindingOf? bindings (variableName field)).map fun text => (field, .str text)

/-- The settings of the given fields, the environment and a file, if there is one. -/
def load (given : List (String × Json)) (environment : List (String × String))
    (file : Option String) : Except SettingsFault Settings := do
  let fromEnvironment ←
    fieldsOf .environment (environment.map fun (name, value) => (name, some value))
  let fromFile ← match file with
    | none => .ok []
    | some text => fieldsOf .file (EnvFile.read environment text)
  check (fromFile ++ fromEnvironment ++ given)

end Settings
end TypeAtlas
