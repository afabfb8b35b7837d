import Bookmarks.Proofs.Crypto.ChangedByte
import Bookmarks.Proofs.Vault.Passwords

/-! # Tokens with a changed byte

The last field of a token's text holds the sealed bytes.  **If any one of them is changed,
the token is turned down as not genuine**, with the password it was sealed under, at every
position of the ciphertext and of the tag.  Under a key that encrypts the zero block to
itself every ciphertext has the same tag, and then only a change of the tag is noticed.
-/
namespace Bookmarks

namespace Token

open Bytes.Base64

/-- The text with another last field. -/
def withLastField (text field : String) : String :=
  String.ofList (Text.joinWith separator (((Text.fields separator text).dropLast ++ [field]).map String.toList))

theorem getLast?_fields_toText (t : Token) :
    (Text.fields separator t.toText).getLast? = some (encode t.sealedBytes) := by
  rw [fields_toText]
  rfl

/-- Another last field is another sequence of sealed bytes. -/
theorem withLastField_toText (t : Token) (bytes : Bytes) :
    withLastField t.toText (encode bytes) = { t with sealedBytes := bytes }.toText := by
  have hfields : ((Text.fields separator t.toText).dropLast ++ [encode bytes]).map String.toList =
      { t with sealedBytes := bytes }.textFields := by
    rw [fields_toText]
    simp only [textFields, List.map_cons, List.map_nil, List.dropLast_cons_cons, List.dropLast_singleton,
      List.cons_append, List.nil_append, encode, String.toList_ofList]
  rw [withLastField, hfields]
  rfl

end Token

namespace Codec

open Crypto
open Payload (sealingKey)

variable {α : Type}

/-- **Whether a token with a changed byte is turned down.**  The last field is the base64 of
the sealed bytes: the ciphertext, which is as long as the plain text, and its tag.  With the
base64 of the same bytes but one in its place, the password it was sealed under gives
`authenticationFailed` exactly if there was another byte, and it belonged to the tag or the
key does not encrypt the zero block to itself. -/
theorem changed_byte_turned_down_iff (c : Codec α) (password : String) (salt : Octets 16) (nonce : Octets 12) (a : α) :
    let text := c.sealText Cipher.standard password salt nonce a
    let zeros : Bytes := List.replicate 16 0
    ∃ bytes, (Text.fields Token.separator text).getLast? = some (Bytes.Base64.encode bytes) ∧
      bytes.length = (Text.utf8 (c.compact a)).length + Gcm.tagLength ∧
      ∀ i b,
        c.openText Cipher.standard password (Token.withLastField text (Bytes.Base64.encode (bytes.set i b))) =
            .error .authenticationFailed ↔
          (∃ old, bytes[i]? = some old ∧ old ≠ b) ∧
            (Aes.encrypt (sealingKey password salt) zeros ≠ zeros ∨ (Text.utf8 (c.compact a)).length ≤ i) := by
  intro text zeros
  let token := c.toToken Cipher.standard password salt nonce a
  have hlen : token.sealedBytes.length = (Text.utf8 (c.compact a)).length + Gcm.tagLength :=
    Gcm.length_encrypt _ _ _
  refine ⟨token.sealedBytes, Token.getLast?_fields_toText token, hlen, ?_⟩
  intro i b
  have htagged : Gcm.tagLength ≤ (token.sealedBytes.set i b).length := by
    rw [List.length_set, hlen]
    exact Nat.le_add_left _ _
  have htoken : Token.ofText (Token.withLastField text (Bytes.Base64.encode (token.sealedBytes.set i b))) =
      .ok { token with sealedBytes := token.sealedBytes.set i b } := by
    rw [show text = token.toText from rfl, Token.withLastField_toText]
    refine Token.ofText_toText (List.ne_nil_of_length_pos (Nat.lt_of_lt_of_le ?_ htagged))
    decide
  have hchanged : (∃ old, token.sealedBytes[i]? = some old ∧ old ≠ b) ↔
      token.sealedBytes.set i b ≠ token.sealedBytes := by
    simp only [Ne, Bytes.set_eq_self_iff, not_forall, exists_prop]
  have hpoint : Aes.encrypt (sealingKey password salt) zeros ≠ zeros ↔ Gcm.point (sealingKey password salt) ≠ 0 :=
    not_congr (Gcm.point_eq_zero_iff _).symm
  have hrefused : c.openText Cipher.standard password
        (Token.withLastField text (Bytes.Base64.encode (token.sealedBytes.set i b))) = .error .authenticationFailed ↔
      Gcm.decrypt? (sealingKey password salt) nonce (token.sealedBytes.set i b) = none :=
    openText_eq_authenticationFailed_iff htoken htagged c password
  rw [hrefused, hchanged, hpoint]
  exact Gcm.decrypt?_set_eq_none_iff _ _ _ _ _

end Codec

end Bookmarks
