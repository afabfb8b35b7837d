import Bookmarks.Shelf.Edit
import Bookmarks.Storage
import Bookmarks.Supply
import Bookmarks.Vault.Sealing

/-! # The vault

Private links are kept sealed and are in memory only while the vault is unlocked,
together with the password they are sealed under.  This module has what is sealed,
the states of a vault, and what a command makes of the private links.
-/
namespace Bookmarks

/-- What is sealed: the private links. -/
structure Payload where
  links : List Link
  deriving DecidableEq, Repr, Inhabited

namespace Payload

/-- A payload as JSON. -/
def toJson (p : Payload) : Json :=
  .object [("links", Link.codec.list.encode p.links)]

/-- How a payload is read. -/
def record : Record Payload :=
  Record.make Payload.mk
    |>.field "links" Link.codec.list.read .refused

/-- The codec of payloads. -/
def codec : Codec Payload where
  encode := toJson
  read := record.read "PrivateVaultPayload"

/-- The payload that an attempt to open a token lets in.  What opens but cannot be
read counts as an empty vault. -/
def accept : Except CryptoError Payload → Option Payload
  | .ok p => some p
  | .error (.corruptPayload _) => some ⟨[]⟩
  | .error _ => none

end Payload

/-- Why a call to the vault fails. -/
inductive VaultError where
  | locked
  /-- The password was not accepted; the cause is not told. -/
  | unlockFailed
  | linkNotFound (id : String)
  | invalidLink (reason : String)
  | crypto (reason : String)
  | persistence (reason : String)
  | cancelled
  deriving DecidableEq, Repr

namespace VaultError

/-- The wording of the cause. -/
def message : VaultError → String
  | .locked => "Private vault is locked"
  | .unlockFailed => "Unlock failed"
  | .linkNotFound id => "Private link not found: " ++ id
  | .invalidLink reason => "Invalid link: " ++ reason
  | .crypto reason => "Vault crypto error: " ++ reason
  | .persistence reason => "Failed to persist vault: " ++ reason
  | .cancelled => "Vault operation cancelled"

/-- Whether the same call may succeed when it is made again. -/
def isRetryable : VaultError → Bool
  | .persistence _ => true
  | .cancelled => true
  | _ => false

/-- The error for a storage that gives no answer. -/
def ofStorage (e : StorageError) : VaultError := .persistence e.message

/-- The error for a command on links. -/
def ofLink : LinkError → VaultError
  | .notFound id => .linkNotFound id
  | .invalid reason => .invalidLink reason.message

end VaultError

/-- What the vault holds: a password and links exactly while it is unlocked. -/
inductive Vault where
  | locked
  /-- A key is being derived to unlock the vault. -/
  | unlocking
  | unlocked (password : String) (links : List Link)
  deriving DecidableEq, Repr, Inhabited

/-- A change of the private links. -/
inductive VaultCommand where
  | add (draft : Draft)
  | update (update : Update)
  | delete (id : String)
  | togglePin (id : String)
  | reorder (activeId overId : String)
  | reorderPinned (activeId overId : String)
  deriving DecidableEq, Repr

/-- What a call answers. -/
inductive VaultReply where
  | opened (ok : Bool)
  | done
  | created (id : String)
  deriving DecidableEq, Repr

namespace VaultCommand

/-- A private link edited as an update says; its category stays. -/
def editLink (u : Update) (l : Link) : Except InvalidLink Link := do
  let url ← match u.url with
    | some url => acceptUrl url
    | none => pure l.url
  let title ← match u.title with
    | some title => acceptTitle title
    | none => pure l.title
  return { l with
    url, title
    description := Update.replaced u.description l.description
    icon := Update.replaced u.icon l.icon }

/-- The private links after a command, and its reply. -/
def perform (supply : Supply) (links : Shelf) : VaultCommand → Except LinkError (Shelf × VaultReply)
  | .add draft =>
    (Shelf.add links draft (supply.id 0) supply.now Category.privateId).map
      fun next => (next, .created (supply.id 0))
  | .update u => (Shelf.update links u (editLink u)).map fun next => (next, .done)
  | .delete id => (Shelf.delete links id).map fun next => (next, .done)
  | .togglePin id => (Shelf.togglePin links id).map fun next => (next, .done)
  | .reorder activeId overId =>
    .ok (Shelf.reorder links activeId overId (.category Category.privateId), .done)
  | .reorderPinned activeId overId => .ok (Shelf.reorder links activeId overId .pinned, .done)

/-- Whether a command that leaves the links as they are is done without sealing
them again. -/
def isReorder : VaultCommand → Bool
  | .reorder _ _ => true
  | .reorderPinned _ _ => true
  | _ => false

end VaultCommand

namespace Vault

/-- Whether the private links are in memory. -/
def isUnlocked : Vault → Bool
  | .unlocked _ _ => true
  | _ => false

/-- The private links, as they are shown. -/
def links : Vault → Except VaultError (List Link)
  | .unlocked _ links => .ok links
  | _ => .error .locked

/-- Whether anything was ever sealed. -/
def everSealed (storage : Storage) : Except VaultError Bool :=
  match storage.read Storage.tokenKey with
  | .ok token => .ok token.isSome
  | .error e => .error (.ofStorage e)

end Vault

end Bookmarks
