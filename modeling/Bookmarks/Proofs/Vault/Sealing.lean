import Bookmarks.Proofs.Crypto.Gcm
import Bookmarks.Proofs.Json.Records
import Bookmarks.Proofs.Text.Symbols
import Bookmarks.Proofs.Vault.Token
import Bookmarks.Vault.Sealing

/-! # Opening what was sealed

A cipher is lawful if it opens what it seals and appends a tag to it.  Under such a
cipher **a value that its codec keeps is opened from the text of its token**, with the
password that it was sealed under.  The cipher that tokens are made with is lawful.
-/
namespace Bookmarks

namespace Cipher

/-- What is asked of a cipher: opening undoes sealing, and a sealed text holds a tag. -/
structure Lawful (cipher : Cipher) : Prop where
  decrypt?_encrypt : ∀ key nonce plain, cipher.decrypt? key nonce (cipher.encrypt key nonce plain) = some plain
  tagged : ∀ key nonce plain, Crypto.Gcm.tagLength ≤ (cipher.encrypt key nonce plain).length

/-- **The cipher that tokens are made with is lawful.** -/
theorem standard_lawful : standard.Lawful where
  decrypt?_encrypt := Crypto.Gcm.decrypt?_encrypt
  tagged key nonce plain := by
    show Crypto.Gcm.tagLength ≤ (Crypto.Gcm.encrypt key nonce plain).length
    rw [Crypto.Gcm.length_encrypt]
    exact Nat.le_add_left _ _

variable {cipher : Cipher}

theorem Lawful.reveal_encrypt (h : cipher.Lawful) (key : Octets 32) (nonce : Octets 12) (plain : Bytes) :
    cipher.reveal key nonce (cipher.encrypt key nonce plain) = .ok plain := by
  unfold reveal
  rw [if_neg (Nat.not_lt.mpr (h.tagged key nonce plain)), h.decrypt?_encrypt]

end Cipher

namespace Codec

variable {α : Type} {c : Codec α} {a : α} {cipher : Cipher}

theorem Keeps.ofBytes_compact (h : c.Keeps a) : c.ofBytes (Text.utf8 (c.compact a)) = .ok a := by
  rw [ofBytes, Text.symbolsOfBytes_utf8]
  exact h.ofText_compact

/-- What is sealed is a token, with the salt and the nonce that it was sealed with. -/
theorem ofText_sealText (hcipher : cipher.Lawful) (c : Codec α) (password : String) (salt : Octets 16)
    (nonce : Octets 12) (a : α) :
    Token.ofText (c.sealText cipher password salt nonce a) = .ok (c.toToken cipher password salt nonce a) := by
  refine Token.ofText_toText ?_
  intro hnil
  have htag : Crypto.Gcm.tagLength ≤ (c.toToken cipher password salt nonce a).sealedBytes.length :=
    hcipher.tagged _ _ _
  rw [hnil] at htag
  exact absurd htag (by decide)

theorem plainBytes_toToken (hcipher : cipher.Lawful) (c : Codec α) (password : String) (salt : Octets 16)
    (nonce : Octets 12) (a : α) :
    plainBytes cipher password (c.toToken cipher password salt nonce a) = .ok (Text.utf8 (c.compact a)) :=
  hcipher.reveal_encrypt _ _ _

/-- **What is sealed under a password is opened with it.** -/
theorem Keeps.openText_sealText (h : c.Keeps a) (hcipher : cipher.Lawful) (password : String) (salt : Octets 16)
    (nonce : Octets 12) : c.openText cipher password (c.sealText cipher password salt nonce a) = .ok a := by
  unfold openText
  rw [ofText_sealText hcipher]
  simp only [Bind.bind, Except.bind, plainBytes_toToken hcipher, h.ofBytes_compact]

/-- Opening asks of a password only what keys it gives. -/
theorem openText_congr {password other : String}
    (h : ∀ salt, cipher.deriveKey (Text.utf8 password) salt = cipher.deriveKey (Text.utf8 other) salt)
    (c : Codec α) (text : String) : c.openText cipher password text = c.openText cipher other text := by
  have hplain : ∀ t, plainBytes cipher password t = plainBytes cipher other t := by
    intro t
    unfold plainBytes
    rw [h]
  unfold openText
  simp only [hplain]

/-- A token is turned down as not genuine exactly where the cipher does so; what opens is
at worst a text that cannot be read. -/
theorem openText_eq_authenticationFailed_iff {text : String} {t : Token} (ht : Token.ofText text = .ok t)
    (htagged : Crypto.Gcm.tagLength ≤ t.sealedBytes.length) (c : Codec α) (password : String) :
    c.openText cipher password text = .error .authenticationFailed ↔
      cipher.decrypt? (cipher.deriveKey (Text.utf8 password) t.salt.toBytes) t.nonce t.sealedBytes = none := by
  unfold openText
  rw [ht]
  cases hdecrypt : cipher.decrypt? (cipher.deriveKey (Text.utf8 password) t.salt.toBytes) t.nonce t.sealedBytes with
  | none =>
    have hplain : plainBytes cipher password t = .error .authenticationFailed := by
      rw [plainBytes, Cipher.reveal, if_neg (Nat.not_lt.mpr htagged), hdecrypt]
    simp only [Bind.bind, Except.bind, hplain]
  | some bytes =>
    have hplain : plainBytes cipher password t = .ok bytes := by
      rw [plainBytes, Cipher.reveal, if_neg (Nat.not_lt.mpr htagged), hdecrypt]
    refine ⟨fun h => ?_, nofun⟩
    simp only [Bind.bind, Except.bind, hplain] at h
    split at h <;> cases h

end Codec

end Bookmarks
