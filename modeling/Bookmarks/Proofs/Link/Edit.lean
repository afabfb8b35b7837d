import Bookmarks.Proofs.Collection.Changes
import Mathlib.Data.List.DropRight
import Mathlib.Data.List.TakeWhile

/-! # Edits made twice

An address is kept in a form that is accepted as it is: it is trimmed and has a scheme, and
putting it into its stored form again changes nothing.  So **an edit changes nothing about
a link that it has been made to**.
-/
namespace Bookmarks

namespace Text

/-- Characters are trimmed if there is no blank at either end of them. -/
theorem trimChars_eq_self {cs : List Char} (hhead : ∀ h : 0 < cs.length, ¬ isBlank cs[0])
    (hlast : ∀ h : cs ≠ [], ¬ isBlank (cs.getLast h)) : trimChars cs = cs := by
  show List.rdropWhile isBlank (cs.dropWhile isBlank) = cs
  rw [List.dropWhile_eq_self_iff.mpr hhead, List.rdropWhile_eq_self_iff.mpr hlast]

theorem getLast_trimChars (cs : List Char) (h : trimChars cs ≠ []) : ¬ isBlank ((trimChars cs).getLast h) :=
  List.rdropWhile_last_not isBlank _ h

theorem head_trimChars (cs : List Char) (h : 0 < (trimChars cs).length) : ¬ isBlank (trimChars cs)[0] := by
  have hfront : trimChars cs <+: cs.dropWhile isBlank := List.rdropWhile_prefix isBlank _
  have hpos : 0 < (cs.dropWhile isBlank).length := Nat.lt_of_lt_of_le h hfront.length_le
  rw [hfront.getElem h]
  exact List.dropWhile_eq_self_iff.mp (List.dropWhile_idempotent isBlank cs) hpos

theorem trimChars_trimChars (cs : List Char) : trimChars (trimChars cs) = trimChars cs :=
  trimChars_eq_self (head_trimChars cs) (getLast_trimChars cs)

theorem trim_trim (s : String) : trim (trim s) = trim s := by
  refine String.toList_inj.mp ?_
  rw [toList_trim, toList_trim, trimChars_trimChars]

end Text

namespace Url

/-- Before trimmed characters a scheme may stand without a blank between them. -/
theorem trimChars_scheme_append {cs : List Char} (h : cs ≠ []) (htrim : Text.trimChars cs = cs) :
    Text.trimChars ("https://".toList ++ cs) = "https://".toList ++ cs := by
  have hhead : Text.isBlank 'h' = false := by decide
  refine Text.trimChars_eq_self (fun _ => Bool.not_eq_true _ ▸ hhead) fun hne => ?_
  have hlast := Text.getLast_trimChars cs (htrim.symm ▸ h)
  rw [List.getLast_append_of_ne_nil hne h]
  simpa only [htrim] using hlast

theorem hasScheme_https_append (cs : List Char) : hasScheme ("https://".toList ++ cs) = true := by
  refine List.any_eq_true.mpr ⟨"https://".toList, by decide, ?_⟩
  exact List.isPrefixOf_iff_prefix.mpr (List.prefix_append _ _)

/-- The stored form of an address is trimmed and has a scheme. -/
theorem isTrimmed_of_normalize {raw url : String} (h : normalize raw = some url) :
    Text.IsTrimmed url ∧ hasScheme url.toList = true := by
  have hofList : ∀ cs : List Char, Text.trimChars cs = cs → Text.IsTrimmed (String.ofList cs) := by
    intro cs hcs
    rw [Text.IsTrimmed, Text.trim, String.toList_ofList, hcs]
  have htrim := Text.trimChars_trimChars raw.toList
  unfold normalize at h
  dsimp only at h
  generalize Text.trimChars raw.toList = cs at h htrim
  by_cases hempty : cs.isEmpty
  · rw [if_pos hempty] at h
    cases h
  · rw [if_neg hempty] at h
    by_cases hscheme : hasScheme cs
    · rw [if_pos hscheme, Option.some.injEq] at h
      subst h
      exact ⟨hofList cs htrim, by rwa [String.toList_ofList]⟩
    · rw [if_neg hscheme, Option.some.injEq] at h
      subst h
      have hne : cs ≠ [] := fun hnil => hempty (List.isEmpty_iff.mpr hnil)
      exact ⟨hofList _ (trimChars_scheme_append hne htrim), by rw [String.toList_ofList, hasScheme_https_append]⟩

/-- **An address is its own stored form exactly if it is trimmed and has a scheme.** -/
theorem isNormal_iff {url : String} : IsNormal url ↔ Text.IsTrimmed url ∧ hasScheme url.toList = true := by
  constructor
  · exact isTrimmed_of_normalize
  · rintro ⟨htrim, hscheme⟩
    have hchars : Text.trimChars url.toList = url.toList := by
      rw [← Text.toList_trim, show Text.trim url = url from htrim]
    have hempty : url.toList.isEmpty = false := by
      cases hcs : url.toList with
      | nil =>
        rw [hcs] at hscheme
        cases hscheme
      | cons c cs => rfl
    unfold IsNormal normalize
    simp only [hchars, hempty, hscheme, if_true, Bool.false_eq_true, if_false, String.ofList_toList]

/-- **The stored form of an address is its own stored form.** -/
theorem isNormal_of_normalize {raw url : String} (h : normalize raw = some url) : IsNormal url :=
  isNormal_iff.mpr (isTrimmed_of_normalize h)

end Url

/-! ## Addresses and titles as they are accepted -/

theorem acceptUrl_of_isNormal {url : String} (h : Url.IsNormal url) : acceptUrl url = .ok url := by
  unfold acceptUrl
  rw [show Url.normalize url = some url from h]

theorem isNormal_of_acceptUrl {raw url : String} (h : acceptUrl raw = .ok url) : Url.IsNormal url := by
  unfold acceptUrl at h
  split at h
  · next normal hnormal =>
    obtain rfl := Except.ok.inj h
    exact Url.isNormal_of_normalize hnormal
  · cases h

theorem acceptTitle_eq_ok {raw title : String} (h : acceptTitle raw = .ok title) :
    title ≠ "" ∧ Text.IsTrimmed title := by
  unfold acceptTitle at h
  dsimp only at h
  split at h
  · cases h
  · next hne =>
    obtain rfl := Except.ok.inj h
    exact ⟨hne, Text.trim_trim raw⟩

/-- An update that gives no title leaves the one that is there. -/
theorem Update.acceptedTitle_eq_ok {u : Update} {l : Link} {title : String}
    (hl : l.title ≠ "" ∧ Text.IsTrimmed l.title) (h : u.acceptedTitle l = .ok title) :
    title ≠ "" ∧ Text.IsTrimmed title := by
  unfold acceptedTitle at h
  split at h
  · exact acceptTitle_eq_ok h
  · obtain rfl := Except.ok.inj h
    exact hl

/-! ## Edits -/

theorem replaced_replaced (given old : Option String) :
    Update.replaced given (Update.replaced given old) = Update.replaced given old := by
  cases given <;> rfl

/-- **An edit changes nothing about a link that it has been made to.** -/
theorem Collection.edit_of_edited {categories : List Category} {u : Update} {l m : Link}
    (h : edit categories u l = .ok m) : edit categories u m = .ok m := by
  obtain ⟨url, title, hurl, htitle, rfl⟩ := edit_eq_ok_iff.mp h
  refine edit_eq_ok_iff.mpr ⟨url, title, ?_, ?_, ?_⟩
  · cases hgiven : u.url with
    | some given =>
      rw [hgiven] at hurl
      exact hurl
    | none => exact acceptUrl_of_isNormal (isNormal_of_acceptUrl hurl)
  · unfold Update.acceptedTitle at htitle ⊢
    cases hgiven : u.title with
    | some given =>
      rw [hgiven] at htitle
      exact htitle
    | none => rfl
  · dsimp only
    rw [replaced_replaced, replaced_replaced]
    cases u.categoryId <;> rfl

end Bookmarks
