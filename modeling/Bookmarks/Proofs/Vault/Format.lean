import Bookmarks.Proofs.Vault.Passwords

/-! # What the text of a token has to be

The text of a token is the version and three fields in base64, with points between them.
**A text is read exactly if it is written so**, whatever white space stands around it, and
what is sealed in it has at least one byte; so the text tells the token, and the token the
text.

What comes of opening a text is decided in this order: whether it is that of a token that
has room for a tag, which no password changes; whether the tag is right; and whether the
plain bytes can be read.
-/
namespace Bookmarks

open Crypto

namespace Token

open Bytes.Base64

variable {t : Token}

/-- A text is that of a token with these fields, but for the white space around it. -/
def Written (text : String) (salt : Octets 16) (nonce : Octets 12) (sealedBytes : Bytes) : Prop :=
  sealedBytes ≠ [] ∧
    Text.trim text = "v1." ++ encode salt.toBytes ++ "." ++ encode nonce.toBytes ++ "." ++ encode sealedBytes

/-! ## Only texts of tokens are read -/

theorem fieldBytes_eq_ok {name field : String} {bytes : Bytes} (h : fieldBytes name field = .ok bytes) :
    bytes ≠ [] ∧ field = encode bytes := by
  unfold fieldBytes at h
  split at h
  · cases h
  · next hne =>
    split at h
    · next decoded hdecode =>
      cases h
      have hfield : field = encode bytes := decode?_eq_some_iff.mp hdecode
      refine ⟨?_, hfield⟩
      rintro rfl
      exact hne hfield
    · cases h

theorem fieldOctets_eq_ok {name field : String} {n : Nat} {o : Octets n} (h : fieldOctets name field n = .ok o) :
    field = encode o.toBytes := by
  obtain ⟨bytes, hbytes, h⟩ := ok_of_bind h
  split at h
  · next octets ho =>
    cases h
    rw [← Octets.ofBytes?_eq_some_iff.mp ho]
    exact (fieldBytes_eq_ok hbytes).2
  · cases h

/-- Fields stand for a token only as it is written. -/
theorem ofFields_eq_ok {fields : List String} (h : ofFields fields = .ok t) :
    t.sealedBytes ≠ [] ∧ fields = t.textFields.map String.ofList := by
  unfold ofFields at h
  split at h
  · next tag salt nonce sealedBytes =>
    split at h
    · cases h
    · next htag =>
      obtain ⟨saltOctets, hsalt, h⟩ := ok_of_bind h
      obtain ⟨nonceOctets, hnonce, h⟩ := ok_of_bind h
      obtain ⟨bytes, hbytes, h⟩ := ok_of_bind h
      cases h
      obtain ⟨hne, hfield⟩ := fieldBytes_eq_ok hbytes
      refine ⟨hne, ?_⟩
      rw [Decidable.not_not.mp htag, fieldOctets_eq_ok hsalt, fieldOctets_eq_ok hnonce, hfield]
      simp [textFields, encode]
  · cases h

theorem ofText_eq_ok_iff {text : String} :
    ofText text = .ok t ↔ t.sealedBytes ≠ [] ∧ Text.trim text = t.toText := by
  constructor
  · intro h
    obtain ⟨hne, hfields⟩ := ofFields_eq_ok h
    refine ⟨hne, ?_⟩
    have hchars : Text.splitAt separator (Text.trim text).toList = t.textFields := by
      have hmap := congrArg (List.map String.toList) hfields
      simpa [Text.fields, List.map_map, Function.comp_def] using hmap
    rw [← String.toList_inj, ← Text.joinWith_splitAt separator (Text.trim text).toList, hchars]
    exact String.toList_ofList.symm
  · rintro ⟨hne, htrim⟩
    have hread := ofText_toText hne
    rwa [ofText, trim_toText, ← htrim] at hread

theorem toText_eq (t : Token) :
    t.toText = "v1." ++ encode t.salt.toBytes ++ "." ++ encode t.nonce.toBytes ++ "." ++ encode t.sealedBytes := by
  rw [← String.toList_inj]
  simp [toText, Text.joinWith, version, separator, encode]

/-- **A text is read exactly if it is written as a token is.** -/
theorem ofText_eq_ok_iff_written {text : String} :
    ofText text = .ok t ↔ Written text t.salt t.nonce t.sealedBytes := by
  rw [ofText_eq_ok_iff, toText_eq, Written]

/-! ## What is not the text of a token -/

/-- A reading that turns a text down only for not being that of a token. -/
def JudgesFormat {α : Type} (x : Except CryptoError α) : Prop :=
  ∀ cause, x = .error cause → ∃ reason, cause = .invalidFormat reason

theorem JudgesFormat.bind {α β : Type} {x : Except CryptoError α} {f : α → Except CryptoError β}
    (hx : JudgesFormat x) (hf : ∀ a, JudgesFormat (f a)) : JudgesFormat (x >>= f) := by
  intro cause h
  cases hx' : x with
  | error e =>
    rw [hx'] at h
    cases h
    exact hx _ hx'
  | ok a =>
    rw [hx'] at h
    exact hf a cause h

theorem fieldBytes_judgesFormat (name field : String) : JudgesFormat (fieldBytes name field) := by
  intro cause h
  unfold fieldBytes at h
  split at h
  · cases h
    exact ⟨_, rfl⟩
  · split at h
    · cases h
    · cases h
      exact ⟨_, rfl⟩

theorem fieldOctets_judgesFormat (name field : String) (n : Nat) : JudgesFormat (fieldOctets name field n) := by
  refine (fieldBytes_judgesFormat name field).bind fun bytes cause h => ?_
  split at h
  · cases h
  · cases h
    exact ⟨_, rfl⟩

/-- **Reading a token judges nothing but its format.** -/
theorem ofText_judgesFormat (text : String) : JudgesFormat (ofText text) := by
  unfold ofText ofFields
  split
  · split
    · rintro _ ⟨⟩
      exact ⟨_, rfl⟩
    · refine (fieldOctets_judgesFormat _ _ _).bind fun salt => ?_
      refine (fieldOctets_judgesFormat _ _ _).bind fun nonce => ?_
      refine (fieldBytes_judgesFormat _ _).bind fun sealedBytes => ?_
      rintro _ ⟨⟩
  · rintro _ ⟨⟩
    exact ⟨_, rfl⟩

/-- A text is turned down exactly if it is not written as a token is. -/
theorem ofText_eq_invalidFormat_iff (text : String) : (∃ reason, ofText text = .error (.invalidFormat reason)) ↔
    ¬ ∃ salt nonce sealedBytes, Written text salt nonce sealedBytes := by
  constructor
  · rintro ⟨reason, hread⟩ ⟨salt, nonce, sealedBytes, h⟩
    have hok : ofText text = .ok ⟨salt, nonce, sealedBytes⟩ := ofText_eq_ok_iff_written.mpr h
    rw [hread] at hok
    cases hok
  · intro hnone
    cases hread : ofText text with
    | error cause =>
      obtain ⟨reason, rfl⟩ := ofText_judgesFormat text cause hread
      exact ⟨reason, rfl⟩
    | ok t => exact absurd ⟨_, _, _, ofText_eq_ok_iff_written.mp hread⟩ hnone

/-! ## What opening comes to -/

open Payload

variable {α : Type} {text : String}

/-- Where a text is not that of a token, nothing else is looked at. -/
theorem openText_of_unread {cause : CryptoError} (h : ofText text = .error cause) (c : Codec α) (password : String) :
    c.openText Cipher.standard password text = .error cause := by
  rw [Codec.openText, h]
  rfl

/-- Why sealed bytes that have no room for a tag are turned down. -/
def shortReason (size : Nat) : String :=
  "Ciphertext must be at least " ++ toString Gcm.tagLength ++ " bytes, got " ++ toString size

theorem openText_of_short (ht : ofText text = .ok t) (hshort : t.sealedBytes.length < Gcm.tagLength)
    (c : Codec α) (password : String) :
    c.openText Cipher.standard password text = .error (.invalidFormat (shortReason t.sealedBytes.length)) := by
  rw [Codec.openText, ht]
  simp only [Bind.bind, Except.bind, Codec.plainBytes, Cipher.reveal, if_pos hshort]
  rfl

/-- **What opening comes to once the text is that of a token with a tag.** -/
theorem openText_of_tagged {salt : Octets 16} {nonce : Octets 12} {body mac : Bytes}
    (ht : ofText text = .ok ⟨salt, nonce, body ++ mac⟩) (hmac : mac.length = Gcm.tagLength) (c : Codec α)
    (password : String) :
    c.openText Cipher.standard password text =
      if mac = Gcm.tag (sealingKey password salt) nonce body then
        (c.ofBytes (Bytes.xor body (Gcm.keyStream (sealingKey password salt) nonce body.length))).mapError
          fun fault => .corruptPayload fault.message
      else .error .authenticationFailed := by
  have hlong : ¬ (body ++ mac).length < Gcm.tagLength := by
    rw [List.length_append, hmac]
    omega
  have hdecrypt : Cipher.standard.decrypt? (Cipher.standard.deriveKey (Text.utf8 password) salt.toBytes) nonce
      (body ++ mac) = if mac = Gcm.tag (sealingKey password salt) nonce body then
        some (Bytes.xor body (Gcm.keyStream (sealingKey password salt) nonce body.length)) else none :=
    Gcm.decrypt?_append _ _ _ hmac
  rw [Codec.openText, ht]
  by_cases htag : mac = Gcm.tag (sealingKey password salt) nonce body
  · rw [if_pos htag] at hdecrypt
    have hplain : Codec.plainBytes Cipher.standard password ⟨salt, nonce, body ++ mac⟩ =
        .ok (Bytes.xor body (Gcm.keyStream (sealingKey password salt) nonce body.length)) := by
      rw [Codec.plainBytes, Cipher.reveal, if_neg hlong, hdecrypt]
    simp only [Bind.bind, Except.bind, hplain, if_pos htag]
    cases c.ofBytes (Bytes.xor body (Gcm.keyStream (sealingKey password salt) nonce body.length)) with
    | error fault => rfl
    | ok a => rfl
  · rw [if_neg htag] at hdecrypt
    have hplain : Codec.plainBytes Cipher.standard password ⟨salt, nonce, body ++ mac⟩ =
        .error .authenticationFailed := by
      rw [Codec.plainBytes, Cipher.reveal, if_neg hlong, hdecrypt]
    simp only [Bind.bind, Except.bind, hplain, if_neg htag]

/-- The three kinds of texts: no token, a token without room for a tag, and one that ends in a tag. -/
theorem text_cases (text : String) :
    (∃ reason, ofText text = .error (.invalidFormat reason)) ∨
    (∃ t, ofText text = .ok t ∧ t.sealedBytes.length < Gcm.tagLength) ∨
    ∃ salt nonce body mac, mac.length = Gcm.tagLength ∧ ofText text = .ok ⟨salt, nonce, body ++ mac⟩ := by
  cases hread : ofText text with
  | error cause =>
    obtain ⟨reason, rfl⟩ := ofText_judgesFormat text cause hread
    exact Or.inl ⟨reason, rfl⟩
  | ok t =>
    obtain ⟨salt, nonce, sealedBytes⟩ := t
    by_cases hshort : sealedBytes.length < Gcm.tagLength
    · exact Or.inr (Or.inl ⟨_, rfl, hshort⟩)
    · refine Or.inr (Or.inr ⟨salt, nonce, sealedBytes.take (sealedBytes.length - Gcm.tagLength),
        sealedBytes.drop (sealedBytes.length - Gcm.tagLength), ?_, ?_⟩)
      · rw [List.length_drop]
        omega
      · rw [List.take_append_drop]

/-- **No password has a say in whether a text is turned down for its format.** -/
theorem openText_eq_invalidFormat_iff (c : Codec α) (password reason : String) :
    c.openText Cipher.standard password text = .error (.invalidFormat reason) ↔
      ofText text = .error (.invalidFormat reason) ∨
      ∃ t, ofText text = .ok t ∧ t.sealedBytes.length < Gcm.tagLength ∧ shortReason t.sealedBytes.length = reason := by
  rcases text_cases text with ⟨cause, hread⟩ | ⟨t, hread, hshort⟩ | ⟨salt, nonce, body, mac, hmac, hread⟩
  · rw [openText_of_unread hread, hread]
    simp
  · rw [openText_of_short hread hshort, hread]
    simp [hshort]
  · rw [openText_of_tagged hread hmac, hread]
    constructor
    · intro h
      split at h
      · cases hplain : c.ofBytes (Bytes.xor body (Gcm.keyStream (sealingKey password salt) nonce body.length)) with
        | error fault =>
          rw [hplain] at h
          cases h
        | ok a =>
          rw [hplain] at h
          cases h
      · cases h
    · rintro (⟨⟨⟩⟩ | ⟨_, ⟨⟩, hshort, -⟩)
      rw [List.length_append, hmac] at hshort
      omega

/-- **A text opens exactly as it is written.**  It is read as a token exactly if, but for the white space
around it, it is the version and three fields in base64: sixteen bytes of salt, twelve of nonce, and
the sealed bytes, of which there is at least one.  Two texts that are read alike are equal when
trimmed, and what sealing makes is of this form.

Opening turns a text down for its format exactly if it is not of the form or the sealed bytes are
fewer than a tag has, with the same reason whatever the password.  Otherwise the sealed bytes end in
sixteen that are taken for the tag, and opening comes to nothing else than these three: the tag is
wrong, it is right and the plain bytes cannot be read, or they can. -/
theorem opens_exactly_as_written (c : Codec α) :
    (∀ text salt nonce sealedBytes,
      ofText text = .ok ⟨salt, nonce, sealedBytes⟩ ↔ Written text salt nonce sealedBytes) ∧
    (∀ text other t, ofText text = .ok t → ofText other = .ok t → Text.trim text = Text.trim other) ∧
    (∀ password salt nonce a, Written (c.sealText Cipher.standard password salt nonce a) salt nonce
      (Gcm.encrypt (sealingKey password salt) nonce (Text.utf8 (c.compact a)))) ∧
    (∀ text password,
      (∃ reason, c.openText Cipher.standard password text = .error (.invalidFormat reason)) ↔
        (¬ ∃ salt nonce sealedBytes, Written text salt nonce sealedBytes) ∨
        ∃ salt nonce sealedBytes, Written text salt nonce sealedBytes ∧ sealedBytes.length < Gcm.tagLength) ∧
    (∀ text password other reason, c.openText Cipher.standard password text = .error (.invalidFormat reason) →
      c.openText Cipher.standard other text = .error (.invalidFormat reason)) ∧
    ∀ text salt nonce body mac, mac.length = Gcm.tagLength → Written text salt nonce (body ++ mac) →
      ∀ password, let key := sealingKey password salt
        let plain := Bytes.xor body (Gcm.keyStream key nonce body.length)
        (c.openText Cipher.standard password text = .error .authenticationFailed ↔ mac ≠ Gcm.tag key nonce body) ∧
        (∀ reason, c.openText Cipher.standard password text = .error (.corruptPayload reason) ↔
          mac = Gcm.tag key nonce body ∧ ∃ fault, c.ofBytes plain = .error fault ∧ fault.message = reason) ∧
        ∀ a, c.openText Cipher.standard password text = .ok a ↔
          mac = Gcm.tag key nonce body ∧ c.ofBytes plain = .ok a := by
  refine ⟨fun text salt nonce sealedBytes => ofText_eq_ok_iff_written, ?_, ?_, ?_, ?_, ?_⟩
  · intro text other t h hother
    rw [(ofText_eq_ok_iff.mp h).2, (ofText_eq_ok_iff.mp hother).2]
  · intro password salt nonce a
    exact ofText_eq_ok_iff_written.mp (Codec.ofText_sealText Cipher.standard_lawful c password salt nonce a)
  · intro text password
    simp only [openText_eq_invalidFormat_iff, exists_or]
    refine or_congr (ofText_eq_invalidFormat_iff text) ?_
    constructor
    · rintro ⟨-, t, hread, hshort, -⟩
      exact ⟨t.salt, t.nonce, t.sealedBytes, ofText_eq_ok_iff_written.mp hread, hshort⟩
    · rintro ⟨salt, nonce, sealedBytes, h, hshort⟩
      exact ⟨_, ⟨salt, nonce, sealedBytes⟩, ofText_eq_ok_iff_written.mpr h, hshort, rfl⟩
  · intro text password other reason h
    rw [openText_eq_invalidFormat_iff] at h ⊢
    exact h
  · intro text salt nonce body mac hmac h password key plain
    have hread : ofText text = .ok ⟨salt, nonce, body ++ mac⟩ := ofText_eq_ok_iff_written.mpr h
    have hopen := openText_of_tagged hread hmac c password
    by_cases htag : mac = Gcm.tag key nonce body
    · rw [if_pos htag] at hopen
      cases hplain : c.ofBytes plain with
      | error fault =>
        have hrefused : c.openText Cipher.standard password text = .error (.corruptPayload fault.message) := by
          rw [hopen, hplain]
          rfl
        simp [hrefused, htag]
      | ok a =>
        have hopened : c.openText Cipher.standard password text = .ok a := by
          rw [hopen, hplain]
          rfl
        simp [hopened, htag]
    · rw [if_neg htag] at hopen
      simp [hopen, htag]

end Token

end Bookmarks
