import Bookmarks.Proofs.Crypto.Pbkdf2
import Bookmarks.Proofs.Vault.Payload

/-! # Passwords and the tokens they open

A payload is opened from its token with the password it was sealed under.  Whether
another password is turned down is up to the two keys: it is exactly if they give the
sealed bytes different tags.  **Different passwords can have one key**: `HMAC` fills a
password up with zeros to a whole block, so that one which ends in zeros is as good as
the one without them, and a password longer than a block is as good as its hash.
-/
namespace Bookmarks.Payload

open Crypto

variable {p : Payload}

/-- The key of a password for a salt, as tokens are sealed with it. -/
def sealingKey (password : String) (salt : Octets 16) : Octets 32 :=
  Cipher.standard.deriveKey (Text.utf8 password) salt.toBytes

/-- **A payload is sealed in a token and opened from it.**  The text is that of a token
with the salt and the nonce that were drawn, which holds the compact text of the payload
and a tag, and the password it was sealed under gives the same payload back: whatever
characters its texts are made of, whichever of its fields are absent, and for all ranks
and times of sixty-four bits. -/
theorem opened_with_password_sealed_under (hp : ∀ l ∈ p.links, l.Storable) (password : String) (salt : Octets 16)
    (nonce : Octets 12) :
    let text := codec.sealText Cipher.standard password salt nonce p
    (∃ t, Token.ofText text = .ok t ∧ t.salt = salt ∧ t.nonce = nonce ∧
      t.sealedBytes.length = (Text.utf8 (codec.compact p)).length + Gcm.tagLength ∧
      Codec.plainBytes Cipher.standard password t = .ok (Text.utf8 (codec.compact p))) ∧
    codec.openText Cipher.standard password text = .ok p := by
  intro text
  have htoken : Token.ofText text = .ok (codec.toToken Cipher.standard password salt nonce p) :=
    Codec.ofText_sealText Cipher.standard_lawful _ _ _ _ _
  have hplain := Codec.plainBytes_toToken Cipher.standard_lawful codec password salt nonce p
  refine ⟨⟨_, htoken, rfl, rfl, Gcm.length_encrypt _ _ _, hplain⟩, ?_⟩
  exact (codec_keeps hp).openText_sealText Cipher.standard_lawful password salt nonce

/-- Links with quotes, control characters and characters outside of the first plane in
their texts, and with the least and the greatest ranks and times. -/
theorem opened_with_hard_texts_and_ranks :
    let l : Link := ⟨"1", "https://lean-lang.org/?q=\"\\", "Zoë 🔒\t\u0001\u2028", some "", "private", none, true,
      some minRank, some maxRank, minRank⟩
    let m : Link := ⟨"", "", "", none, "", some "\u0000", false, none, none, maxRank⟩
    let text := codec.sealText Cipher.standard "päss\n" (Supply.cut 16 [1]) (Supply.cut 12 [2]) ⟨[l, m]⟩
    codec.openText Cipher.standard "päss\n" text = .ok ⟨[l, m]⟩ := by
  intro l m text
  have hp : ∀ k ∈ (⟨[l, m]⟩ : Payload).links, k.Storable := by decide
  exact (opened_with_password_sealed_under hp "päss\n" _ _).2

/-! ## Other passwords -/

/-- Passwords with one key block open the same tokens, to the same. -/
theorem openText_of_keyBlock_eq {password other : String}
    (h : Hmac.keyBlock (Text.utf8 password) = Hmac.keyBlock (Text.utf8 other)) (text : String) :
    codec.openText Cipher.standard password text = codec.openText Cipher.standard other text :=
  Codec.openText_congr (fun salt => Pbkdf2.derive_eq_of_keyBlock_eq h Cipher.rounds salt) codec text

/-- **Whether another password is turned down.**  It is exactly if its key gives what was
sealed another tag.  Two passwords whose bytes, or their hash if they are more than
sixty-four, differ only in zeros at the end have the same key whatever the salt, and then
the payload is opened with either. -/
theorem turned_down_iff_tags_differ (hp : ∀ l ∈ p.links, l.Storable) (password other : String) (salt : Octets 16)
    (nonce : Octets 12) :
    let text := codec.sealText Cipher.standard password salt nonce p
    let ciphertext := Gcm.ciphertext (sealingKey password salt) nonce (Text.utf8 (codec.compact p))
    (codec.openText Cipher.standard other text = .error .authenticationFailed ↔
      Gcm.tag (sealingKey other salt) nonce ciphertext ≠ Gcm.tag (sealingKey password salt) nonce ciphertext) ∧
    ((∃ k, Hmac.shortened (Text.utf8 password) = Hmac.shortened (Text.utf8 other) ++ List.replicate k 0 ∨
        Hmac.shortened (Text.utf8 other) = Hmac.shortened (Text.utf8 password) ++ List.replicate k 0) →
      codec.openText Cipher.standard other text = .ok p) := by
  intro text ciphertext
  constructor
  · have htoken : Token.ofText text = .ok (codec.toToken Cipher.standard password salt nonce p) :=
      Codec.ofText_sealText Cipher.standard_lawful _ _ _ _ _
    have hrefused : codec.openText Cipher.standard other text = .error .authenticationFailed ↔
        Gcm.decrypt? (sealingKey other salt) nonce
          (Gcm.encrypt (sealingKey password salt) nonce (Text.utf8 (codec.compact p))) = none :=
      Codec.openText_eq_authenticationFailed_iff htoken (Cipher.standard_lawful.tagged _ _ _) codec other
    rw [hrefused, Gcm.decrypt?_encrypt_eq]
    by_cases htag : Gcm.tag (sealingKey other salt) nonce ciphertext = Gcm.tag (sealingKey password salt) nonce ciphertext
    · rw [if_pos htag]
      exact ⟨nofun, fun h => absurd htag h⟩
    · rw [if_neg htag]
      exact ⟨fun _ => htag, fun _ => rfl⟩
  · intro h
    have hblock : Hmac.keyBlock (Text.utf8 password) = Hmac.keyBlock (Text.utf8 other) :=
      (Hmac.keyBlock_eq_iff _ _).mpr h
    rw [← openText_of_keyBlock_eq hblock]
    exact (codec_keeps hp).openText_sealText Cipher.standard_lawful password salt nonce

/-- A link sealed under no password at all is opened with two zeros, and so their key
gives it the same tag. -/
theorem opened_with_zeros_for_no_password :
    let l : Link := ⟨"1", "https://lean-lang.org", "Lean", none, "private", none, false, some 0, none, 7⟩
    let salt : Octets 16 := Supply.cut 16 [1]
    let nonce : Octets 12 := Supply.cut 12 [2]
    let ciphertext := Gcm.ciphertext (sealingKey "" salt) nonce (Text.utf8 (codec.compact ⟨[l]⟩))
    codec.openText Cipher.standard "\u0000\u0000" (codec.sealText Cipher.standard "" salt nonce ⟨[l]⟩) = .ok ⟨[l]⟩ ∧
    Gcm.tag (sealingKey "\u0000\u0000" salt) nonce ciphertext = Gcm.tag (sealingKey "" salt) nonce ciphertext := by
  intro l salt nonce ciphertext
  have hp : ∀ k ∈ (⟨[l]⟩ : Payload).links, k.Storable := by decide
  have hzeros : Hmac.shortened (Text.utf8 "\u0000\u0000") = Hmac.shortened (Text.utf8 "") ++ List.replicate 2 0 := by
    rw [Text.utf8_eq, Text.utf8_eq]
    decide
  obtain ⟨hiff, hopened⟩ := turned_down_iff_tags_differ hp "" "\u0000\u0000" salt nonce
  have hopen := hopened ⟨2, Or.inr hzeros⟩
  refine ⟨hopen, ?_⟩
  by_contra hne
  have hrefused := hiff.mpr hne
  rw [hopen] at hrefused
  cases hrefused

/-- What is sealed under `correct` is opened with `correct` and a zero, so another password is not
always turned down. -/
theorem not_every_other_password_turned_down :
    ¬ ∀ (p : Payload) (password other : String) (salt : Octets 16) (nonce : Octets 12),
      (∀ l ∈ p.links, l.Storable) → password ≠ other →
      codec.openText Cipher.standard other (codec.sealText Cipher.standard password salt nonce p) =
        .error .authenticationFailed := by
  intro h
  have hzero : Text.utf8 "correct\u0000" = Text.utf8 "correct" ++ List.replicate 1 0 := by
    rw [Text.utf8_eq, Text.utf8_eq]
    decide
  have hblock : Hmac.keyBlock (Text.utf8 "correct\u0000") = Hmac.keyBlock (Text.utf8 "correct") := by
    rw [hzero]
    refine Hmac.keyBlock_append_zeros ?_
    rw [Text.utf8_eq]
    decide
  have hrefused := h ⟨[]⟩ "correct" "correct\u0000" (Supply.cut 16 []) (Supply.cut 12 []) nofun (by decide)
  have hempty : ∀ l ∈ (⟨[]⟩ : Payload).links, l.Storable := nofun
  rw [openText_of_keyBlock_eq hblock, (codec_keeps hempty).openText_sealText Cipher.standard_lawful] at hrefused
  cases hrefused

end Bookmarks.Payload
