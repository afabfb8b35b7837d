import Bookmarks.Json.Codec
import Bookmarks.Text.Blank

/-! # Settings

Settings are kept as one JSON document of three sections.  A section may be left
out as a whole and then has its defaults; a section that is there has to carry its
main field.
-/
namespace Bookmarks

/-- Where the storage lives. -/
structure StorageSettings where
  /-- The path of the storage, instead of the one in the data directory. -/
  databasePath : Option String
  deriving DecidableEq, Repr, Inhabited

/-- Preferences for the vault. -/
structure VaultSettings where
  enabled : Bool
  /-- The idle minutes after which a host locks the vault. -/
  autoLockMinutes : Option UInt32
  deriving DecidableEq, Repr, Inhabited

/-- Preferences for the log. -/
structure LoggingSettings where
  level : String
  deriving DecidableEq, Repr, Inhabited

/-- All settings. -/
structure Settings where
  storage : StorageSettings
  vault : VaultSettings
  logging : LoggingSettings
  deriving DecidableEq, Repr, Inhabited

namespace StorageSettings

/-- The section when it is left out. -/
def defaults : StorageSettings := ⟨none⟩

/-- The section as JSON. -/
def toJson (s : StorageSettings) : Json :=
  .object [("database_path", .ofString? s.databasePath)]

/-- How the section is read. -/
def record : Record StorageSettings :=
  Record.make StorageSettings.mk
    |>.field "database_path" (Document.readOption Document.readString) (.inObjectMeans none)

end StorageSettings

namespace VaultSettings

/-- The section when it is left out. -/
def defaults : VaultSettings := ⟨true, none⟩

/-- The section as JSON. -/
def toJson (s : VaultSettings) : Json :=
  .object [("enabled", .bool s.enabled),
    ("auto_lock_minutes", match s.autoLockMinutes with | some n => .ofNat n.toNat | none => .null)]

/-- How the section is read. -/
def record : Record VaultSettings :=
  Record.make VaultSettings.mk
    |>.field "enabled" Document.readBool .refused
    |>.field "auto_lock_minutes" (Document.readOption Document.readUInt32) (.inObjectMeans none)

end VaultSettings

namespace LoggingSettings

/-- The section when it is left out. -/
def defaults : LoggingSettings := ⟨"info"⟩

/-- The section as JSON. -/
def toJson (s : LoggingSettings) : Json :=
  .object [("level", .string s.level)]

/-- How the section is read. -/
def record : Record LoggingSettings :=
  Record.make LoggingSettings.mk
    |>.field "level" Document.readString .refused

end LoggingSettings

namespace Settings

/-- The settings while none are stored. -/
def defaults : Settings := ⟨.defaults, .defaults, .defaults⟩

/-- The settings as JSON. -/
def toJson (s : Settings) : Json :=
  .object [("storage", s.storage.toJson), ("vault", s.vault.toJson), ("logging", s.logging.toJson)]

/-- How settings are read. -/
def record : Record Settings :=
  Record.make Settings.mk
    |>.field "storage" (StorageSettings.record.read "StorageSettings") (.means .defaults)
    |>.field "vault" (VaultSettings.record.read "VaultSettings") (.means .defaults)
    |>.field "logging" (LoggingSettings.record.read "LoggingSettings") (.means .defaults)

/-- The codec of settings. -/
def codec : Codec Settings where
  encode := toJson
  read := record.read "AppSettings"

end Settings

end Bookmarks
