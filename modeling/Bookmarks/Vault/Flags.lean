import Bookmarks.Vault.Basic

/-! # The flags of the vault

Next to the sealed vault two flags are kept in the open.  They hold no secret: a
host may read from them whether to offer unlocking.
-/
namespace Bookmarks

/-- What is known of the vault without opening it. -/
structure VaultFlags where
  enabled : Bool
  autoUnlockHint : Bool
  deriving DecidableEq, Repr, Inhabited

namespace VaultFlags

/-- The flags while none are stored. -/
def defaults : VaultFlags := ⟨false, false⟩

/-- The flags as JSON. -/
def toJson (f : VaultFlags) : Json :=
  .object [("enabled", .bool f.enabled), ("autoUnlockHint", .bool f.autoUnlockHint)]

/-- How flags are read. -/
def record : Record VaultFlags :=
  Record.make VaultFlags.mk
    |>.field "enabled" Document.readBool .refused
    |>.field "autoUnlockHint" Document.readBool (.means false)

/-- The codec of flags. -/
def codec : Codec VaultFlags where
  encode := toJson
  read := record.read "VaultFlags"

/-- The stored flags; what cannot be read counts as none. -/
def load (storage : Storage) : Except VaultError VaultFlags :=
  match storage.read Storage.flagsKey with
  | .error e => .error (.ofStorage e)
  | .ok none => .ok defaults
  | .ok (some text) =>
    match codec.ofText text with
    | .ok flags => .ok flags
    | .error _ => .ok defaults

/-- Writes the flags. -/
def save (storage : Storage) (flags : VaultFlags) : Except VaultError Unit × Storage :=
  match storage.write Storage.flagsKey (some (codec.compact flags)) with
  | (.ok _, storage) => (.ok (), storage)
  | (.error e, storage) => (.error (.ofStorage e), storage)

end VaultFlags

end Bookmarks
