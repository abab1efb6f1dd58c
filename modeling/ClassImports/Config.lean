import ClassImports.Toml.Document

/-!
# Settings files

A settings file is a TOML document with two sections: `discovery` tells which class files to look
at, `imports` which imports to leave out. Every setting has a default. Keys that are no settings
are refused, so that a misspelt setting does not go unnoticed. Entries are checked in the order of
the document, and the first that is wrong decides the error.

A section may also be given as an array of the values of its settings in order; what is given
beyond them does not count.
-/

namespace ClassImports

/-- The settings of a project. -/
structure Config where
  /-- Which class files to look at; all of them if there are none. -/
  includes : List String := []
  /-- Which class files not to look at. -/
  excludes : List String := []
  /-- Which imports to leave out. -/
  ignores : List String := []
  /-- Whether to leave out a class's own name. -/
  dropSelf : Bool := true
  deriving DecidableEq, Repr, Inhabited

/-- Why a text is no settings file. -/
inductive ConfigError where
  | notToml
  /-- `name` is none of the keys that may stand there. -/
  | unknownField (name : String) (expected : List String)
  | wrongType
  deriving DecidableEq, Repr

/-- What is wrong, in words. -/
def ConfigError.detail : ConfigError → String
  | notToml => "not a TOML document"
  | unknownField name expected =>
    "unknown field `" ++ name ++ "`, expected " ++
      String.intercalate " or " (expected.map fun key => "`" ++ key ++ "`")
  | wrongType => "wrong type of value"

/-- The error in words. -/
def ConfigError.message (error : ConfigError) : String :=
  "TOML parse error: " ++ error.detail

namespace Config

open Toml (Value)

/-- A list of texts. -/
def texts? : Value → Except ConfigError (List String)
  | .array items => items.mapM fun item =>
    match item with
    | .string text => .ok text
    | _ => .error .wrongType
  | _ => .error .wrongType

/-- A truth value. -/
def boolean? : Value → Except ConfigError Bool
  | .boolean value => .ok value
  | _ => .error .wrongType

/-- A setting: how a value changes the settings. -/
abbrev Setting := String × (Config → Value → Except ConfigError Config)

/-- The settings of the section `discovery`. -/
def discoverySettings : List Setting := [
  ("include", fun config value => (texts? value).map fun includes => { config with includes }),
  ("exclude", fun config value => (texts? value).map fun excludes => { config with excludes })]

/-- The settings of the section `imports`. -/
def importSettings : List Setting := [
  ("ignore", fun config value => (texts? value).map fun ignores => { config with ignores }),
  ("drop_self", fun config value => (boolean? value).map fun dropSelf => { config with dropSelf })]

/-- Changes the settings by the entries of a table. -/
def readEntries (settings : List Setting) (config : Config) (entries : List (String × Value)) :
    Except ConfigError Config :=
  entries.foldlM (fun config (key, value) =>
    match settings.lookup key with
    | some change => change config value
    | none => .error (.unknownField key (settings.map (·.1)))) config

/-- The key under which a date is presented where a section is expected. -/
def dateKey : String := "$__toml_private_datetime"

/-- Changes the settings by a section. -/
def readSection (settings : List Setting) (config : Config) :
    Value → Except ConfigError Config
  | .table entries => readEntries settings config entries
  | .array items =>
    (settings.zip items).foldlM (fun config (setting, value) => setting.2 config value) config
  | .dateTime => .error (.unknownField dateKey (settings.map (·.1)))
  | _ => .error .wrongType

/-- The sections of a settings file. -/
def sections : List Setting := [
  ("discovery", readSection discoverySettings),
  ("imports", readSection importSettings)]

/-- Reads a settings file. -/
def ofToml (document : String) : Except ConfigError Config :=
  match Toml.parse? document with
  | some entries => readEntries sections {} entries
  | none => .error .notToml

end Config

end ClassImports
