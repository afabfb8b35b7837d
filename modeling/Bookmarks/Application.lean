import Bookmarks.Host
import Bookmarks.Store
import Bookmarks.Vault.Call
import Bookmarks.Vault.Flags

/-! # The application

The application owns the settings, the open collection and the private vault.  The
collection and the vault share one storage and touch different keys of it; the
settings have a file of their own.
-/
namespace Bookmarks

/-- The application with everything it reads and writes. -/
structure Application where
  storage : Storage
  settingsFile : SettingsFile
  place : Place
  store : Store
  vault : Vault

namespace Application

/-- The application over a storage, with prepared settings; the vault is locked. -/
def start (storage : Storage) (settingsFile : SettingsFile) (place : Place) : Application :=
  { storage, settingsFile, place, store := Store.load storage, vault := .locked }

/-- Whether the settings allow the vault to be used. -/
def vaultEnabled (app : Application) : Bool :=
  app.settingsFile.settings.vault.enabled

/-- Reads the collection again. -/
def reload (app : Application) : Application :=
  { app with store := Store.load app.storage }

/-- Locks the vault. -/
def lockVault (app : Application) : Application :=
  { app with vault := .locked }

/-- Locks the vault, and tries once more to write a collection that could not be
written. -/
def shutdown (app : Application) : Application :=
  if app.store.dirty then
    let flushed := app.store.flush app.storage
    { app with vault := .locked, store := flushed.store, storage := flushed.storage }
  else app.lockVault

/-- Carries a command on the collection out. -/
def run (app : Application) (supply : Supply) (command : Command) : Except StoreError Reply × Application :=
  let outcome := app.store.run supply app.storage command
  (outcome.answer, { app with store := outcome.store, storage := outcome.storage })

/-- Makes a call to the vault. -/
def callVault (app : Application) (cipher : Cipher) (supply : Supply) (call : VaultCall) :
    Except VaultError VaultReply × Application :=
  let outcome := app.vault.run cipher supply app.storage call
  (outcome.answer, { app with vault := outcome.vault, storage := outcome.storage })

/-- Changes a setting.  Switching the vault off by its own key locks it. -/
def set (app : Application) (key : String) (value : Json) : Except SettingsError Unit × Application :=
  let outcome := app.settingsFile.set app.place key value
  let app := { app with settingsFile := outcome.settingsFile, place := outcome.place }
  match outcome.answer with
  | .error e => (.error e, app)
  | .ok _ => (.ok (), if key = "vault.enabled" ∧ !app.vaultEnabled then app.lockVault else app)

end Application

end Bookmarks
