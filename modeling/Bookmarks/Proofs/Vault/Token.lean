import Bookmarks.Proofs.Bytes.Base64
import Bookmarks.Proofs.Text.Fields
import Bookmarks.Vault.Token

/-! # Reading back a token

The text of a token is read back: no field holds the character between the fields, no
character of it is blank, and each field is read back from its base64.
-/
namespace Bookmarks

namespace Text

/-- A text without blanks is trimmed. -/
theorem trimChars_of_not_blank {cs : List Char} (h : ∀ c ∈ cs, isBlank c = false) : trimChars cs = cs := by
  have hdrop : ∀ cs : List Char, (∀ c ∈ cs, isBlank c = false) → cs.dropWhile isBlank = cs := by
    intro cs hcs
    cases cs with
    | nil => rfl
    | cons c cs =>
      refine List.dropWhile_cons_of_neg ?_
      simp [hcs c List.mem_cons_self]
  unfold trimChars
  rw [hdrop cs h, hdrop cs.reverse fun c hc => h c (List.mem_reverse.mp hc), List.reverse_reverse]

end Text

namespace Token

open Bytes.Base64

variable {t : Token}

/-- What a field of a token is made of. -/
def IsFieldChar (c : Char) : Prop := c ≠ separator ∧ Text.isBlank c = false

theorem encodeChars_isFieldChar (bytes : Bytes) : ∀ c ∈ encodeChars bytes, IsFieldChar c := by
  have hletter : ∀ n < 64, letter n ≠ separator ∧ Text.isBlank (letter n) = false := by decide
  exact encodeChars_forall hletter (by unfold IsFieldChar; decide) bytes

theorem version_isFieldChar : ∀ c ∈ version.toList, IsFieldChar c := by
  have hv : IsFieldChar 'v' := ⟨by decide, by decide⟩
  have h1 : IsFieldChar '1' := ⟨by decide, by decide⟩
  exact List.forall_mem_cons.mpr ⟨hv, List.forall_mem_singleton.mpr h1⟩

/-- The fields of a token, in their order. -/
def textFields (t : Token) : List (List Char) :=
  [version.toList, encodeChars t.salt.toBytes, encodeChars t.nonce.toBytes, encodeChars t.sealedBytes]

theorem textFields_isFieldChar (t : Token) : ∀ field ∈ t.textFields, ∀ c ∈ field, IsFieldChar c := by
  simp only [textFields, List.forall_mem_cons]
  exact ⟨version_isFieldChar, encodeChars_isFieldChar _, encodeChars_isFieldChar _, encodeChars_isFieldChar _, nofun⟩

theorem trim_toText (t : Token) : Text.trim t.toText = t.toText := by
  have hblank : ∀ c ∈ Text.joinWith separator t.textFields, Text.isBlank c = false :=
    Text.joinWith_forall (by decide) fun field hf c hc => (textFields_isFieldChar t field hf c hc).2
  have hchars : t.toText.toList = Text.joinWith separator t.textFields := String.toList_ofList
  rw [Text.trim, hchars, Text.trimChars_of_not_blank hblank]
  rfl

theorem fields_toText (t : Token) : Text.fields separator t.toText = t.textFields.map String.ofList := by
  have hsplit : Text.splitAt separator (Text.joinWith separator t.textFields) = t.textFields :=
    Text.splitAt_joinWith (by simp [textFields])
      fun field hf hmem => (textFields_isFieldChar t field hf separator hmem).1 rfl
  have hchars : t.toText.toList = Text.joinWith separator t.textFields := String.toList_ofList
  rw [Text.fields, hchars, hsplit]

theorem fieldBytes_encodeChars (name : String) {bytes : Bytes} (h : bytes ≠ []) :
    fieldBytes name (String.ofList (encodeChars bytes)) = .ok bytes := by
  have hne : String.ofList (encodeChars bytes) ≠ "" := by
    intro heq
    refine encodeChars_ne_nil h ?_
    have hlist := congrArg String.toList heq
    rwa [String.toList_ofList] at hlist
  unfold fieldBytes
  rw [if_neg hne, decode?, String.toList_ofList, decodeChars?_encodeChars]

theorem fieldOctets_encodeChars (name : String) {n : Nat} (hn : n ≠ 0) (o : Octets n) :
    fieldOctets name (String.ofList (encodeChars o.toBytes)) n = .ok o := by
  have hne : o.toBytes ≠ [] := by
    intro heq
    have hlen := o.length_toBytes
    rw [heq] at hlen
    exact hn hlen.symm
  unfold fieldOctets
  rw [fieldBytes_encodeChars name hne]
  simp only [Bind.bind, Except.bind, Octets.ofBytes?_toBytes]

/-- **A token is read back from its text**, if anything is sealed in it. -/
theorem ofText_toText (h : t.sealedBytes ≠ []) : ofText t.toText = .ok t := by
  unfold ofText
  rw [trim_toText, fields_toText]
  simp only [textFields, List.map_cons, List.map_nil, String.ofList_toList, ofFields]
  rw [if_neg (by simp), fieldOctets_encodeChars "salt" (by decide), fieldOctets_encodeChars "nonce" (by decide),
    fieldBytes_encodeChars "ciphertext" h]
  rfl

end Token

end Bookmarks
