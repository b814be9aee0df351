import MailAddress.Canonicalization
import MailAddress.Toml.Document

/-!
# Settings

Three settings may stand in a configuration: the default host, in the section of canonicalization,
whether diagnostics are coloured, in the section of output, and whether rules are traced, in the
section of parsing.  A setting may have a value of any type.  What matters of it is its text, or
whether it counts as set.
-/

namespace MailAddress

/-- The settings of a run. -/
structure Settings where
  /-- The host that stands in for missing domains. -/
  defaultHost : Toml.Value := .string []
  /-- Whether diagnostics are coloured. -/
  color : Toml.Value := .boolean true
  /-- Whether rules are traced. -/
  trace : Toml.Value := .boolean false

/-- Why settings cannot be loaded. -/
inductive SettingsError where
  /-- There is no file. -/
  | missing
  /-- The file is a directory. -/
  | isDirectory
  /-- The file does not follow the format. -/
  | malformed
  /-- A section is no table but a value of another type. -/
  | notSection (value : Toml.Value)

/-- The message of an error, where it has one. -/
def SettingsError.message? : SettingsError → Option Text
  | .missing | .isDirectory | .malformed => none
  | .notSection value =>
      some ('\'' :: value.typeName ++ "' object has no attribute 'get'".toList)

namespace Settings

/-- The value of a setting, or a default if it or its section is missing. -/
def lookup (table : Toml.Table) (sectionName name : Text) (default : Toml.Value) :
    Except SettingsError Toml.Value :=
  match table.lookup sectionName with
  | none => .ok default
  | some (.table entries) => .ok ((entries.lookup name).getD default)
  | some value => .error (.notSection value)

/-- The settings in the table of a configuration. -/
def ofTable (table : Toml.Table) : Except SettingsError Settings := do
  let defaults : Settings := {}
  let defaultHost ←
    lookup table "canonicalize".toList "default_host".toList defaults.defaultHost
  let color ← lookup table "output".toList "color".toList defaults.color
  let trace ← lookup table "parse".toList "trace".toList defaults.trace
  return { defaultHost, color, trace }

/-- The settings in the text of a configuration. -/
def ofText (text : Text) : Except SettingsError Settings :=
  match Toml.read? text with
  | some table => ofTable table
  | none => .error .malformed

/-- What becomes of final domains: the default host stands in for missing ones, if it is set. -/
def canonicalization (settings : Settings) : Canonicalization :=
  if settings.defaultHost.isSet then .defaultHost settings.defaultHost.text else .unchanged

end Settings

end MailAddress
