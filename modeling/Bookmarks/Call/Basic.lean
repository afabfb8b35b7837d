import Bookmarks.Application

/-! # Calls

A host asks for an operation by the name of a method and a value of parameters.
`Call` lists what can be asked for, and `Call.ofRequest` finds out which of it a
request is, before anything is done.
-/
namespace Bookmarks

/-- Why a request gets no result. -/
inductive CallError where
  | missing (name : String)
  | invalidParams (fault : Fault)
  | invalidField (name : String) (fault : Fault)
  | emptyNewPassword
  | unknownMethod (name : String)
  | vaultDisabled
  | store (cause : StoreError)
  | vault (cause : VaultError)
  | settings (cause : SettingsError)
  deriving DecidableEq, Repr

/-- The wording of the cause. -/
def CallError.message : CallError → String
  | .missing name => "missing " ++ name
  | .invalidParams fault => "invalid params: " ++ fault.message .value
  | .invalidField name fault => "invalid " ++ name ++ ": " ++ fault.message .value
  | .emptyNewPassword => "new password must not be empty"
  | .unknownMethod name => "unknown method: " ++ name
  | .vaultDisabled => "private vault is disabled"
  | .store cause => cause.message
  | .vault cause => cause.message
  | .settings cause => cause.message

/-- An operation that can be asked for. -/
inductive Call where
  | ping
  | listLinks (categoryId : Option String)
  | listPinned
  | change (command : Command)
  | listCategories
  | exportData
  | getSettings
  | setSetting (key : String) (value : Json)
  | vaultStatus
  | callVault (call : VaultCall)
  | lockVault
  | vaultLinks
  | getFlags
  | setFlags (flags : VaultFlags)

namespace Call

/-- A parameter that has to be a text. -/
def textParam (params : Json) (name : String) : Except CallError String :=
  match (params.get? name).bind Json.asString? with
  | some s => .ok s
  | none => .error (.missing name)

/-- The parameters read as a whole. -/
def wholeParams {α : Type} (codec : Codec α) (params : Json) : Except CallError α :=
  match codec.ofValue params with
  | .ok a => .ok a
  | .error fault => .error (.invalidParams fault)

/-- A parameter read by a codec. -/
def fieldParam {α : Type} (codec : Codec α) (params : Json) (name : String) : Except CallError α :=
  match params.get? name with
  | none => .error (.missing name)
  | some v =>
    match codec.ofValue v with
    | .ok a => .ok a
    | .error fault => .error (.invalidField name fault)

/-- The icon of a category for which none is given. -/
def defaultIcon : String := "Folder"

/-- Two links to put in another order. -/
def orderParams (params : Json) : Except CallError (String × String) := do
  let activeId ← textParam params "activeId"
  let overId ← textParam params "overId"
  return (activeId, overId)

/-- The parameters of an import; categories may be left out. -/
def importParams (params : Json) : Except CallError Command := do
  let links ← fieldParam Link.codec.list params "links"
  let categories ← match params.get? "categories" with
    | some _ => fieldParam Category.codec.list params "categories"
    | none => pure []
  return .importData links categories

/-- The parameters of a change of the password. -/
def passwordParams (params : Json) : Except CallError VaultCall := do
  let old ← textParam params "oldPassword"
  let new ← textParam params "newPassword"
  if new = "" then .error .emptyNewPassword else return .changePassword old new

/-- The operation that a request asks for. -/
def ofRequest (method : String) (params : Json) : Except CallError Call :=
  match method with
  | "ping" => .ok .ping
  | "link.list" => .ok (.listLinks ((params.get? "categoryId").bind Json.asString?))
  | "link.pinned" => .ok .listPinned
  | "link.add" => return .change (.addLink (← wholeParams Draft.codec params))
  | "link.update" => return .change (.updateLink (← wholeParams Update.codec params))
  | "link.delete" => return .change (.deleteLink (← textParam params "id"))
  | "link.togglePin" => return .change (.togglePin (← textParam params "id"))
  | "link.reorder" => do
    let (activeId, overId) ← orderParams params
    return .change (.reorderLinks activeId overId (← textParam params "categoryId"))
  | "link.reorderPinned" => do
    let (activeId, overId) ← orderParams params
    return .change (.reorderPinned activeId overId)
  | "category.list" => .ok .listCategories
  | "category.add" => do
    let name ← textParam params "name"
    let icon := ((params.get? "icon").bind Json.asString?).getD defaultIcon
    return .change (.addCategory name icon)
  | "category.update" => return .change (.updateCategory (← wholeParams Category.codec params))
  | "category.delete" => return .change (.deleteCategory (← textParam params "id"))
  | "data.import" => return .change (← importParams params)
  | "data.export" => .ok .exportData
  | "settings.get" => .ok .getSettings
  | "settings.set" => do
    let key ← textParam params "key"
    match params.get? "value" with
    | some value => return .setSetting key value
    | none => .error (.missing "value")
  | "vault.status" => .ok .vaultStatus
  | "vault.unlock" => return .callVault (.unlock (← textParam params "password"))
  | "vault.lock" => .ok .lockVault
  | "vault.changePassword" => return .callVault (← passwordParams params)
  | "vault.links" => .ok .vaultLinks
  | "vault.add" => return .callVault (.edit (.add (← wholeParams Draft.codec params)))
  | "vault.update" => return .callVault (.edit (.update (← wholeParams Update.codec params)))
  | "vault.delete" => return .callVault (.edit (.delete (← textParam params "id")))
  | "vault.togglePin" => return .callVault (.edit (.togglePin (← textParam params "id")))
  | "vault.reorder" => do
    let (activeId, overId) ← orderParams params
    return .callVault (.edit (.reorder activeId overId))
  | "vault.reorderPinned" => do
    let (activeId, overId) ← orderParams params
    return .callVault (.edit (.reorderPinned activeId overId))
  | "vault.flags.get" => .ok .getFlags
  | "vault.flags.set" => return .setFlags (← wholeParams VaultFlags.codec params)
  | _ => .error (.unknownMethod method)

end Call

end Bookmarks
