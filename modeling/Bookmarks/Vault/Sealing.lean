import Bookmarks.Crypto.Gcm
import Bookmarks.Crypto.Pbkdf2
import Bookmarks.Json.Codec
import Bookmarks.Vault.Token

/-! # Sealing

A value is sealed under a password: its compact text is encrypted under a key that
the password and a salt give, and the whole becomes the text of a token.  Opening
takes the same steps back, and each of them can find something wrong.

What turns a password into a key and a text into a sealed text is a `Cipher`.
`Cipher.standard` is the one that tokens of the current version are made with.
-/
namespace Bookmarks

/-- A way to make keys and to seal bytes. -/
structure Cipher where
  /-- The key for a password and a salt. -/
  deriveKey : Bytes → Bytes → Octets 32
  /-- The sealed bytes for a key, a nonce and plain bytes. -/
  encrypt : Octets 32 → Octets 12 → Bytes → Bytes
  /-- The plain bytes, if the sealed ones are genuine. -/
  decrypt? : Octets 32 → Octets 12 → Bytes → Option Bytes

namespace Cipher

/-- The rounds of key derivation.  A change would make every token unreadable. -/
def rounds : Nat := 100000

/-- Keys by PBKDF2 with HMAC-SHA256, sealing by AES-256-GCM. -/
def standard : Cipher where
  deriveKey password salt := Crypto.Pbkdf2.derive rounds password salt
  encrypt := Crypto.Gcm.encrypt
  decrypt? := Crypto.Gcm.decrypt?

/-- The key that raw bytes are. -/
def keyOfBytes (bytes : Bytes) : Except CryptoError (Octets 32) :=
  match Octets.ofBytes? 32 bytes with
  | some key => .ok key
  | none => .error (.invalidKey ("Key must be 32 bytes, got " ++ toString bytes.length))

/-- The plain bytes of sealed ones. -/
def reveal (cipher : Cipher) (key : Octets 32) (nonce : Octets 12) (sealedBytes : Bytes) :
    Except CryptoError Bytes :=
  if sealedBytes.length < Crypto.Gcm.tagLength then
    .error (.invalidFormat ("Ciphertext must be at least " ++ toString Crypto.Gcm.tagLength ++
      " bytes, got " ++ toString sealedBytes.length))
  else
    match cipher.decrypt? key nonce sealedBytes with
    | some bytes => .ok bytes
    | none => .error .authenticationFailed

end Cipher

/-- The wording of why a text cannot be read. -/
def TextFault.message : TextFault → String
  | .malformed => "not a JSON value"
  | .unfit fault => fault.message .text

namespace Codec

variable {α : Type}

/-- The token of a value under a password. -/
def toToken (c : Codec α) (cipher : Cipher) (password : String) (salt : Octets 16) (nonce : Octets 12)
    (a : α) : Token where
  salt := salt
  nonce := nonce
  sealedBytes :=
    cipher.encrypt (cipher.deriveKey (Text.utf8 password) salt.toBytes) nonce (Text.utf8 (c.compact a))

/-- The text of the token of a value under a password. -/
def sealText (c : Codec α) (cipher : Cipher) (password : String) (salt : Octets 16) (nonce : Octets 12)
    (a : α) : String :=
  (c.toToken cipher password salt nonce a).toText

/-- The plain bytes of a token. -/
def plainBytes (cipher : Cipher) (password : String) (t : Token) : Except CryptoError Bytes :=
  cipher.reveal (cipher.deriveKey (Text.utf8 password) t.salt.toBytes) t.nonce t.sealedBytes

/-- The value sealed in the text of a token. -/
def openText (c : Codec α) (cipher : Cipher) (password text : String) : Except CryptoError α := do
  let token ← Token.ofText text
  let bytes ← plainBytes cipher password token
  match c.ofBytes bytes with
  | .ok a => .ok a
  | .error fault => .error (.corruptPayload fault.message)

end Codec

end Bookmarks
