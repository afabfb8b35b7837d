import Bookmarks.Vault.Call

/-! # The memory of a vault

A `Vault` has a password and links exactly while it is unlocked.  In memory there are three
fields for it, the state, the password and the links, and each of them is assigned on its own:
nothing but the order of the assignments keeps them together.  **Locking wipes the links and
the password before it sets the state, every unlocking locks first**, and a guard sees to it
that an unlocking which is left before its end does not leave the state at `unlocking`.

The calls are those of a `Vault`, taken apart into these assignments, and they are suspended
at the same points.
-/
namespace Bookmarks

/-- The state of a vault. -/
inductive LockState where
  | locked
  /-- A key is being derived to unlock the vault. -/
  | unlocking
  | unlocked
  deriving DecidableEq, Repr, Inhabited

/-- The fields of a vault. -/
structure VaultMemory where
  state : LockState
  password : Option String
  links : List Link
  deriving DecidableEq, Repr, Inhabited

namespace VaultMemory

/-- The memory of a vault before the first call. -/
def new : VaultMemory := ⟨.locked, none, []⟩

/-- Whether the private links can be asked for. -/
def isUnlocked (m : VaultMemory) : Bool :=
  m.state == .unlocked

/-- Wipes the links and the password, and locks. -/
def lock (m : VaultMemory) : VaultMemory :=
  let m := { m with links := [] }
  let m := { m with password := none }
  { m with state := .locked }

/-- The private links, as they are shown. -/
def shown (m : VaultMemory) : Except VaultError (List Link) :=
  if m.isUnlocked then .ok m.links else .error .locked

/-- The password of the session, without which no command on links is taken up. -/
def requireUnlocked (m : VaultMemory) : Except VaultError String :=
  match m.password, m.state with
  | some password, .unlocked => .ok password
  | _, _ => .error .locked

/-! ## The guard of an unlocking -/

/-- The memory when the guard is set up. -/
def enter (m : VaultMemory) : VaultMemory :=
  { m with state := .unlocking }

/-- The memory when the guard is gone, whichever way that came. -/
def release (m : VaultMemory) : VaultMemory :=
  if m.state = .unlocking then { m with state := .locked } else m

/-- The memory when an unlocking has come to its end. -/
def conclude (m : VaultMemory) (state : LockState) : VaultMemory :=
  release { m with state }

/-- The end of an unlocking that got to see a payload, or none; with whether that unlocked
the vault. -/
def settle (m : VaultMemory) (password : String) : Option Payload → VaultMemory × Bool
  | some payload =>
    let m := { m with links := payload.links }
    let m := { m with password := some password }
    (m.conclude .unlocked, true)
  | none => (m.conclude .locked, false)

/-! ## The first part of a call -/

/-- How far the first part of a call gets. -/
inductive Progress where
  | answered (answer : Except VaultError VaultReply)
  | suspended (work : Work)

/-- Goes on to seal the next links, under the password of the session. -/
def commit (m : VaultMemory) (next : List Link) (reply : VaultReply) : Progress :=
  match m.requireUnlocked with
  | .error e => .answered (.error e)
  | .ok password => .suspended (.sealLinks password next reply)

/-- The first part of a command on the private links. -/
def startEdit (supply : Supply) (m : VaultMemory) (command : VaultCommand) : Progress :=
  match m.requireUnlocked with
  | .error e => .answered (.error e)
  | .ok _ =>
    match command.perform supply m.links with
    | .error e => .answered (.error (.ofLink e))
    | .ok (next, reply) =>
      if command.isReorder ∧ next = m.links then .answered (.ok reply) else m.commit next reply

/-- The first part of an unlocking. -/
def startUnlock (m : VaultMemory) (storage : Storage) (password : String) : VaultMemory × Progress :=
  let m := m.lock
  match storage.read Storage.tokenKey with
  | .error _ => (m, .answered (.ok (.opened false)))
  | .ok token =>
    let m := m.enter
    match token with
    | some token => (m, .suspended (.openToken password token))
    | none =>
      let (m, ok) := m.settle password (some ⟨[]⟩)
      (m, .answered (.ok (.opened ok)))

/-- A call up to its answer or to the point where it needs a key. -/
def start (supply : Supply) (m : VaultMemory) (storage : Storage) : VaultCall → VaultMemory × Progress
  | .unlock password => m.startUnlock storage password
  | .changePassword old new =>
    match storage.read Storage.tokenKey with
    | .error e => (m, .answered (.error (.ofStorage e)))
    | .ok token => (m, .suspended (.rekey token old new))
  | .edit command => (m, m.startEdit supply command)

/-- The memory after a suspended call is abandoned: of all work only an unlocking is under a
guard. -/
def abandon (m : VaultMemory) : Work → VaultMemory
  | .openToken _ _ => m.release
  | .sealLinks _ _ _ => m
  | .rekey _ _ _ => m

/-! ## The whole of a call -/

/-- What a call comes to. -/
structure Outcome where
  answer : Except VaultError VaultReply
  memory : VaultMemory
  storage : Storage

/-- Writes a token; the memory changes only if the storage takes it. -/
def writeToken (m : VaultMemory) (storage : Storage) (token : String) (next : VaultMemory) (reply : VaultReply) :
    Outcome :=
  match storage.write Storage.tokenKey (some token) with
  | (.ok _, storage) => ⟨.ok reply, next, storage⟩
  | (.error e, storage) => ⟨.error (.ofStorage e), m, storage⟩

/-- A suspended call from the point where it needs a key to its answer. -/
def finish (cipher : Cipher) (supply : Supply) (m : VaultMemory) (storage : Storage) : Work → Outcome
  | .openToken password token =>
    let (m, ok) := m.settle password (Payload.accept (Payload.codec.openText cipher password token))
    ⟨.ok (.opened ok), m, storage⟩
  | .sealLinks password links reply =>
    m.writeToken storage (Payload.codec.sealText cipher password supply.salt supply.nonce ⟨links⟩)
      { m with links } reply
  | .rekey token old new =>
    match Vault.openStored cipher old token with
    | none => ⟨.error .unlockFailed, m, storage⟩
    | some payload =>
      m.writeToken storage (Payload.codec.sealText cipher new supply.salt supply.nonce payload)
        (if m.isUnlocked then { m with password := some new } else m) .done

/-- A call that is not abandoned. -/
def run (cipher : Cipher) (supply : Supply) (m : VaultMemory) (storage : Storage) (call : VaultCall) : Outcome :=
  match m.start supply storage call with
  | (m, .answered answer) => ⟨answer, m, storage⟩
  | (m, .suspended work) => m.finish cipher supply storage work

/-- A call that is abandoned if it comes to be suspended, with the answer if it does not. -/
def runAbandoned (supply : Supply) (m : VaultMemory) (storage : Storage) (call : VaultCall) :
    Option (Except VaultError VaultReply) × VaultMemory :=
  match m.start supply storage call with
  | (m, .answered answer) => (some answer, m)
  | (m, .suspended work) => (none, m.abandon work)

end VaultMemory

end Bookmarks
