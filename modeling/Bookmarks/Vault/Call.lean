import Bookmarks.Vault.Basic

/-! # Calls to the vault

Every change of the private links seals the whole list again and **writes it before
it becomes visible**.

Deriving a key takes long, so a call that needs one is *suspended* there: up to
that point nothing has changed but that an unlocking has locked the vault, and the
call may be abandoned.  `start` takes a call to its answer or to its suspension,
`finish` takes it from there to its answer.
-/
namespace Bookmarks

/-- A call that may need a key. -/
inductive VaultCall where
  | unlock (password : String)
  | changePassword (old new : String)
  | edit (command : VaultCommand)
  deriving DecidableEq, Repr

/-- What is left of a suspended call. -/
inductive Work where
  | openToken (password token : String)
  | sealLinks (password : String) (links : List Link) (reply : VaultReply)
  | rekey (token : Option String) (old new : String)
  deriving DecidableEq, Repr

/-- What the first part of a call comes to. -/
inductive Started where
  | answered (answer : Except VaultError VaultReply) (vault : Vault)
  | suspended (vault : Vault) (work : Work)

namespace Vault

/-- The first part of a command on the private links. -/
def startEdit (supply : Supply) (vault : Vault) (command : VaultCommand) : Started :=
  match vault with
  | .unlocked password links =>
    match command.perform supply links with
    | .error e => .answered (.error (.ofLink e)) vault
    | .ok (next, reply) =>
      if command.isReorder ∧ next = links then .answered (.ok reply) vault
      else .suspended vault (.sealLinks password next reply)
  | _ => .answered (.error .locked) vault

/-- A call up to its answer or to the point where it needs a key. -/
def start (supply : Supply) (vault : Vault) (storage : Storage) : VaultCall → Started
  | .unlock password =>
    match storage.read Storage.tokenKey with
    | .error _ => .answered (.ok (.opened false)) .locked
    | .ok none => .answered (.ok (.opened true)) (.unlocked password [])
    | .ok (some token) => .suspended .unlocking (.openToken password token)
  | .changePassword old new =>
    match storage.read Storage.tokenKey with
    | .error e => .answered (.error (.ofStorage e)) vault
    | .ok token => .suspended vault (.rekey token old new)
  | .edit command => startEdit supply vault command

/-- The vault after a suspended call is abandoned. -/
def abandon : Vault → Vault
  | .unlocking => .locked
  | vault => vault

/-- What a call comes to. -/
structure Outcome where
  answer : Except VaultError VaultReply
  vault : Vault
  storage : Storage

/-- Writes a token; the vault changes only if the storage takes it. -/
def writeToken (vault : Vault) (storage : Storage) (token : String) (next : Vault)
    (reply : VaultReply) : Outcome :=
  match storage.write Storage.tokenKey (some token) with
  | (.ok _, storage) => ⟨.ok reply, next, storage⟩
  | (.error e, storage) => ⟨.error (.ofStorage e), vault, storage⟩

/-- The vault under a new password. -/
def withPassword (password : String) : Vault → Vault
  | .unlocked _ links => .unlocked password links
  | vault => vault

/-- The payload of a stored token, or an empty one if there is none. -/
def openStored (cipher : Cipher) (password : String) : Option String → Option Payload
  | some token => Payload.accept (Payload.codec.openText cipher password token)
  | none => some ⟨[]⟩

/-- A suspended call from the point where it needs a key to its answer. -/
def finish (cipher : Cipher) (supply : Supply) (vault : Vault) (storage : Storage) : Work → Outcome
  | .openToken password token =>
    match openStored cipher password (some token) with
    | some payload => ⟨.ok (.opened true), .unlocked password payload.links, storage⟩
    | none => ⟨.ok (.opened false), .locked, storage⟩
  | .sealLinks password links reply =>
    writeToken vault storage
      (Payload.codec.sealText cipher password supply.salt supply.nonce ⟨links⟩)
      (.unlocked password links) reply
  | .rekey token old new =>
    match openStored cipher old token with
    | none => ⟨.error .unlockFailed, vault, storage⟩
    | some payload =>
      writeToken vault storage
        (Payload.codec.sealText cipher new supply.salt supply.nonce payload)
        (vault.withPassword new) .done

/-- A call that is not abandoned. -/
def run (cipher : Cipher) (supply : Supply) (vault : Vault) (storage : Storage) (call : VaultCall) :
    Outcome :=
  match start supply vault storage call with
  | .answered answer vault => ⟨answer, vault, storage⟩
  | .suspended vault work => finish cipher supply vault storage work

/-- A call that is abandoned if it comes to be suspended, with the answer if it
does not. -/
def runAbandoned (supply : Supply) (vault : Vault) (storage : Storage) (call : VaultCall) :
    Option (Except VaultError VaultReply) × Vault :=
  match start supply vault storage call with
  | .answered answer vault => (some answer, vault)
  | .suspended vault _ => (none, vault.abandon)

end Vault

end Bookmarks
