import Bookmarks.Call.Basic

/-! # Answering calls

Every call answers a JSON value or an error, and takes the application to its next
state.  Eight calls work on the private links; they are refused while the settings
have the vault switched off.
-/
namespace Bookmarks.Application

/-- The answer to a call that has nothing to tell. -/
def okJson : Json := .object [("ok", .bool true)]

/-- The answer to a call that made something. -/
def idJson (id : String) : Json := .object [("id", .string id)]

/-- What an import has done, as JSON. -/
def summaryJson (s : ImportSummary) : Json :=
  .object [("categoriesAdded", .ofNat s.categoriesAdded), ("idsReassigned", .ofNat s.idsReassigned),
    ("linksAdded", .ofNat s.linksAdded), ("linksSkipped", .ofNat s.linksSkipped)]

/-- The answer for the reply of the store. -/
def replyJson : Reply → Json
  | .done => okJson
  | .created id => idJson id
  | .imported summary => summaryJson summary

/-- The answer for the reply of the vault. -/
def vaultReplyJson : VaultReply → Json
  | .opened ok => .object [("ok", .bool ok)]
  | .done => okJson
  | .created id => idJson id

/-- What is known of the vault. -/
def vaultStatus (app : Application) : Except CallError Json :=
  match Vault.everSealed app.storage with
  | .ok initialized =>
    .ok (.object [("enabled", .bool app.vaultEnabled), ("initialized", .bool initialized),
      ("unlocked", .bool app.vault.isUnlocked)])
  | .error e => .error (.vault e)

/-- Does what a call asks for. -/
def perform (cipher : Cipher) (supply : Supply) (app : Application) : Call → Except CallError Json × Application
  | .ping => (.ok (.object [("pong", .bool true)]), app)
  | .listLinks none => (.ok (Link.codec.list.toValue app.store.links), app)
  | .listLinks (some id) => (.ok (Link.codec.list.toValue (app.store.view id)), app)
  | .listPinned => (.ok (Link.codec.list.toValue app.store.pins), app)
  | .change command =>
    match app.run supply command with
    | (.ok reply, app) => (.ok (replyJson reply), app)
    | (.error e, app) => (.error (.store e), app)
  | .listCategories => (.ok (Category.codec.list.toValue app.store.categories), app)
  | .exportData => (.ok (Collection.codec.toValue app.store.collection), app)
  | .getSettings => (.ok (Settings.codec.toValue app.settingsFile.settings), app)
  | .setSetting key value =>
    match app.set key value with
    | (.ok _, app) => (.ok okJson, app)
    | (.error e, app) => (.error (.settings e), app)
  | .vaultStatus => (app.vaultStatus, app)
  | .callVault call =>
    if app.vaultEnabled then
      match app.callVault cipher supply call with
      | (.ok reply, app) => (.ok (vaultReplyJson reply), app)
      | (.error e, app) => (.error (.vault e), app)
    else (.error .vaultDisabled, app)
  | .lockVault => (.ok okJson, app.lockVault)
  | .vaultLinks =>
    match app.vault.links with
    | .ok links => (.ok (Link.codec.list.toValue links), app)
    | .error e => (.error (.vault e), app)
  | .getFlags =>
    match VaultFlags.load app.storage with
    | .ok flags => (.ok (VaultFlags.codec.toValue flags), app)
    | .error e => (.error (.vault e), app)
  | .setFlags flags =>
    match VaultFlags.save app.storage flags with
    | (.ok _, storage) => (.ok okJson, { app with storage })
    | (.error e, storage) => (.error (.vault e), { app with storage })

/-- Answers a request. -/
def answer (cipher : Cipher) (supply : Supply) (app : Application) (method : String) (params : Json) :
    Except CallError Json × Application :=
  match Call.ofRequest method params with
  | .ok call => app.perform cipher supply call
  | .error e => (.error e, app)

end Bookmarks.Application
