import Bookmarks.Host.Path
import Bookmarks.Settings.File

/-! # Places on the host

Where the settings and the storage live follows from environment variables: the
base directories of the XDG specification if they are set, else the usual ones
under the home directory.
-/
namespace Bookmarks

/-- The environment variables that are set. -/
abbrev Environment := List (String × String)

namespace Host

/-- The directory of the program below a base directory. -/
def directoryName : String := "linkdeck"

/-- The home directory, or the directory for temporary files. -/
def homeDirectory (env : Environment) : String :=
  match env.lookup "HOME" with
  | some home => home
  | none => (env.lookup "TMPDIR").getD "/tmp"

/-- The directory below a base directory that a variable names, or else below the
home directory. -/
def baseDirectory (env : Environment) (name : String) (fallback : List String) : String :=
  match env.lookup name with
  | some base => if base = "" then joinAll (homeDirectory env) (fallback ++ [directoryName]) else join base directoryName
  | none => joinAll (homeDirectory env) (fallback ++ [directoryName])

/-- The directory for settings. -/
def configDirectory (env : Environment) : String :=
  baseDirectory env "XDG_CONFIG_HOME" [".config"]

/-- The directory for the storage. -/
def dataDirectory (env : Environment) : String :=
  baseDirectory env "XDG_DATA_HOME" [".local", "share"]

/-- The file for settings. -/
def settingsPath (env : Environment) : String :=
  join (configDirectory env) SettingsFile.fileName

end Host

namespace SettingsFile

/-- The name of the storage: the one that the settings give, or the usual path in
the data directory. -/
def storageName (f : SettingsFile) (dataDirectory : String) : String :=
  match f.settings.storage.databasePath with
  | some path =>
    if Text.isBlankText path then Host.join dataDirectory databaseName else path
  | none => Host.join dataDirectory databaseName

end SettingsFile

end Bookmarks
