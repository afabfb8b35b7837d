import Bookmarks.Settings.Basic
import Bookmarks.Settings.Path

/-! # The settings file

Settings are held in memory, and their text is kept in one file.  What is
at the place of that file decides whether it can be read and written; a `Place`
says so.  **A change is made in memory first and then written**, so that a write
that fails leaves the new settings in memory.
-/
namespace Bookmarks

/-- Why a settings operation fails. -/
inductive SettingsError where
  | io (reason : String)
  | serialization (reason : String)
  | invalidKey (reason : String)
  | invalidValue (reason : String)
  deriving DecidableEq, Repr

/-- The wording of the cause. -/
def SettingsError.message : SettingsError → String
  | .io reason => "Settings I/O error: " ++ reason
  | .serialization reason => "Settings serialization error: " ++ reason
  | .invalidKey reason => "Invalid settings key: " ++ reason
  | .invalidValue reason => "Invalid settings value: " ++ reason

/-- What is at the place of a file. -/
inductive Place where
  /-- Nothing, but a file can be made. -/
  | vacant
  /-- A file with this text. -/
  | file (text : String)
  /-- A file with this text that cannot be written whole.  An attempt leaves in it what it
  had, where it cannot be opened, and what there is room for, where the disk is full. -/
  | fixed (text left : String)
  /-- A directory. -/
  | directory
  /-- Nothing, and the directory for it cannot be made. -/
  | barred
  /-- Nothing, and no file can be made, though its directory can; once that is made,
  the place itself may be a directory. -/
  | unfit (becomesDirectory : Bool)
  deriving DecidableEq, Repr, Inhabited

namespace Place

/-- The text of the file, if there is one. -/
def text? : Place → Option String
  | .file text | .fixed text _ => some text
  | _ => none

/-- Puts a text into the file. -/
def write (place : Place) (text : String) : Except SettingsError Unit × Place :=
  match place with
  | .vacant => (.ok (), .file text)
  | .file _ => (.ok (), .file text)
  | .fixed _ left => (.error (.io "Failed to write config file"), .fixed left left)
  | .directory => (.error (.io "Failed to write config file"), place)
  | .barred => (.error (.io "Failed to create config directory"), place)
  | .unfit becomesDirectory =>
    (.error (.io "Failed to write config file"), if becomesDirectory then .directory else place)

end Place

/-- Settings in memory, and the path of the file that keeps them. -/
structure SettingsFile where
  path : String
  settings : Settings
  deriving DecidableEq, Repr, Inhabited

namespace SettingsFile

/-- The name of the file inside the configuration directory. -/
def fileName : String := "settings.json"

/-- The name of the storage inside the data directory. -/
def databaseName : String := "linkdeck.db"

/-- The settings file at a path, with the default settings in memory. -/
def new (path : String) : SettingsFile := ⟨path, .defaults⟩

/-- What an operation on settings comes to. -/
structure Outcome where
  answer : Except SettingsError Unit
  settingsFile : SettingsFile
  place : Place

/-- Reads the settings; a missing file stands for the defaults, and one that cannot
be read leaves the settings as they are. -/
def load (f : SettingsFile) (place : Place) : Except SettingsError Unit × SettingsFile :=
  match place with
  | .vacant => (.ok (), { f with settings := .defaults })
  | .barred => (.ok (), { f with settings := .defaults })
  | .unfit _ => (.ok (), { f with settings := .defaults })
  | .directory => (.error (.io "Failed to read config file"), f)
  | .file text | .fixed text _ =>
    match Settings.codec.ofText text with
    | .ok settings => (.ok (), { f with settings })
    | .error _ => (.error (.serialization "Failed to parse config file"), f)

/-- Writes the settings. -/
def save (f : SettingsFile) (place : Place) : Outcome :=
  let written := place.write (Settings.codec.pretty f.settings)
  ⟨written.1, f, written.2⟩

/-- Goes back to the defaults and writes them. -/
def reset (f : SettingsFile) (place : Place) : Outcome :=
  save { f with settings := .defaults } place

/-- The error for a key that names no place. -/
def keyError (key : String) : PathFault → SettingsError
  | .notFound => .invalidKey ("Key '" ++ key ++ "' not found in settings")
  | .notAnObject =>
    .invalidKey ("Cannot navigate to key '" ++ key ++ "': intermediate value is not an object")

/-- The settings with a value put where a key says. -/
def edited (settings : Settings) (key : String) (value : Json) : Except SettingsError Settings :=
  if Text.isBlankText key then .error (.invalidKey "Key cannot be empty")
  else
    match (Path.ofKey key).replace value (Settings.codec.toValue settings) with
    | .error fault => .error (keyError key fault)
    | .ok document =>
      match Settings.codec.ofValue document with
      | .ok settings => .ok settings
      | .error fault =>
        .error (.invalidValue ("Invalid value for key '" ++ key ++ "': " ++ fault.message .value))

/-- Puts a value where a key says, and writes the settings. -/
def set (f : SettingsFile) (place : Place) (key : String) (value : Json) : Outcome :=
  match edited f.settings key value with
  | .error cause => ⟨.error cause, f, place⟩
  | .ok settings => save { f with settings } place

end SettingsFile

end Bookmarks
