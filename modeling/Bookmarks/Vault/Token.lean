import Bookmarks.Bytes.Base64
import Bookmarks.Text.Blank
import Bookmarks.Text.Fields

/-! # Tokens

A sealed vault is kept as one line of text: four fields with points between them,
the version and then the salt, the nonce and the sealed bytes in base64.  **A text
is a token in at most one way**, and white space around it does not count.
-/
namespace Bookmarks

/-- Why sealing or opening fails. -/
inductive CryptoError where
  /-- The text is not a token. -/
  | invalidFormat (reason : String)
  /-- The tag is wrong, because of the password or because of the bytes. -/
  | authenticationFailed
  /-- The opened text is not what was expected. -/
  | corruptPayload (reason : String)
  | keyDerivation (reason : String)
  | encryption (reason : String)
  | randomGeneration (reason : String)
  | invalidKey (reason : String)
  deriving DecidableEq, Repr

/-- The wording of the cause. -/
def CryptoError.message : CryptoError → String
  | .invalidFormat reason => "Invalid vault token: " ++ reason
  | .authenticationFailed => "Vault authentication failed: wrong password or corrupted data"
  | .corruptPayload reason => "Corrupt vault payload: " ++ reason
  | .keyDerivation reason => "Key derivation failed: " ++ reason
  | .encryption reason => "Encryption failed: " ++ reason
  | .randomGeneration reason => "Random generation failed: " ++ reason
  | .invalidKey reason => "Invalid key: " ++ reason

/-- A sealed vault, taken apart. -/
structure Token where
  salt : Octets 16
  nonce : Octets 12
  sealedBytes : Bytes
  deriving DecidableEq, Repr

namespace Token

/-- The version that is written and read. -/
def version : String := "v1"

/-- The character between the fields. -/
def separator : Char := '.'

/-- The text of a token. -/
def toText (t : Token) : String :=
  String.ofList <| Text.joinWith separator
    [version.toList, Bytes.Base64.encodeChars t.salt.toBytes, Bytes.Base64.encodeChars t.nonce.toBytes,
      Bytes.Base64.encodeChars t.sealedBytes]

/-- The bytes of a field. -/
def fieldBytes (name field : String) : Except CryptoError Bytes :=
  if field = "" then .error (.invalidFormat ("empty " ++ name ++ " field"))
  else
    match Bytes.Base64.decode? field with
    | some bytes => .ok bytes
    | none => .error (.invalidFormat (name ++ " is not base64"))

/-- The bytes of a field that has to have a length. -/
def fieldOctets (name field : String) (n : Nat) : Except CryptoError (Octets n) := do
  let bytes ← fieldBytes name field
  match Octets.ofBytes? n bytes with
  | some octets => .ok octets
  | none =>
    .error (.invalidFormat (name ++ " must be " ++ toString n ++ " bytes, got " ++ toString bytes.length))

/-- The token that four fields stand for. -/
def ofFields : List String → Except CryptoError Token
  | [tag, salt, nonce, sealedBytes] =>
    if tag ≠ version then .error (.invalidFormat ("unsupported version '" ++ tag ++ "'"))
    else do
      let salt ← fieldOctets "salt" salt 16
      let nonce ← fieldOctets "nonce" nonce 12
      let sealedBytes ← fieldBytes "ciphertext" sealedBytes
      return { salt, nonce, sealedBytes }
  | fields => .error (.invalidFormat ("expected 4 fields, got " ++ toString fields.length))

/-- The token of a text. -/
def ofText (text : String) : Except CryptoError Token :=
  ofFields (Text.fields separator (Text.trim text))

end Token

end Bookmarks
