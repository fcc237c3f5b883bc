import StereoMapping.Error
import StereoMapping.Settings.Record

/-!
# `Settings.File` — settings files

A component may be given a settings file. Its settings then are those of the file, checked, with defaults for
what the file leaves out; without a file they stay as they are, and are only checked.
-/

namespace StereoMapping

/-- A settings file, as it was found. -/
inductive SettingsFile where
  /-- It is missing or is no text. -/
  | unreadable
  | text (content : String)

/-- Settings that a file can give. -/
class Settings (P : Type) where
  default : P
  codec : Codec P
  /-- Every value is in its range. -/
  validate : P → Except Error Unit

namespace SettingsFile

/-- The value of a file. -/
def load {α : Type} (c : Codec α) : SettingsFile → Except Error α
  | unreadable => throw .unreadable
  | text content =>
    match (Json.parse? content).bind c.read? with
    | some a => pure a
    | none => throw .malformedSettings

variable {P : Type} [Settings P]

/-- The settings of a file, unchecked, or the default ones if there is no file. -/
def loadOrDefault (file : Option SettingsFile) : Except Error P :=
  match file with
  | some f => f.load Settings.codec
  | none => pure Settings.default

/-- The checked settings of a file, or the current ones if there is no file and they pass the check. -/
def reload (file : Option SettingsFile) (current : P) : Except Error P := do
  let settings ← match file with
    | some f => f.load Settings.codec
    | none => pure current
  Settings.validate settings
  return settings

end SettingsFile

end StereoMapping
