import Bookmarks.Proofs.Collection.Repaired
import Bookmarks.Proofs.Link.Edit
import Bookmarks.Proofs.Store.Invariant

/-! # Addresses and titles at all times

The address and the title of a link come in with a new link, with an edit or with an import.
Each of the three checks them and brings them into their stored form, and nothing else changes
them: repairs and merges keep the texts of all links (`texts_repair`, `texts_merge`), and the
other commands only give out ranks.  So **every link is clean at all times**
(`addresses_and_titles_clean_at_all_times`), if those are that are stored.
-/
namespace Bookmarks

/-- A link with an address that starts with a scheme and a title that is not empty, both
without white space around them. -/
structure Link.IsClean (l : Link) : Prop where
  scheme : "http://".toList <+: l.url.toList ∨ "https://".toList <+: l.url.toList
  url : Text.trim l.url = l.url
  title : l.title ≠ "" ∧ Text.trim l.title = l.title

theorem Link.isClean_iff {l : Link} : l.IsClean ↔ Url.IsNormal l.url ∧ l.title ≠ "" ∧ Text.IsTrimmed l.title := by
  have hscheme : Url.hasScheme l.url.toList = true ↔
      "http://".toList <+: l.url.toList ∨ "https://".toList <+: l.url.toList := by
    simp only [Url.hasScheme, Url.schemes, List.any_cons, List.any_nil, Bool.or_false, Bool.or_eq_true,
      List.isPrefixOf_iff_prefix]
  rw [Url.isNormal_iff, hscheme]
  exact ⟨fun h => ⟨⟨h.url, h.scheme⟩, h.title⟩, fun h => ⟨h.1.2, h.1.1, h.2⟩⟩

instance (l : Link) : Decidable l.IsClean :=
  decidable_of_iff _ Link.isClean_iff.symm

/-- The address and the title of a link. -/
def Link.texts (l : Link) : String × String := (l.url, l.title)

theorem Link.IsClean.of_texts_eq {l m : Link} (h : l.IsClean) (htexts : m.texts = l.texts) : m.IsClean := by
  obtain ⟨hurl, htitle⟩ := Prod.mk.inj htexts
  rw [isClean_iff, hurl, htitle]
  exact isClean_iff.mp h

theorem Shelf.rankFree_isClean (bound : Nat) : RankFree bound Link.IsClean where
  order _ _ _ h := h.of_texts_eq rfl
  pin _ _ _ _ h := h.of_texts_eq rfl

/-! ## What comes in -/

theorem Draft.isClean_toLink {d : Draft} {id categoryId : String} {now : Int} {l : Link}
    (h : d.toLink id now categoryId = .ok l) : l.IsClean := by
  obtain ⟨url, title, hurl, htitle, rfl⟩ := toLink_eq_ok_iff.mp h
  exact Link.isClean_iff.mpr ⟨isNormal_of_acceptUrl hurl, acceptTitle_eq_ok htitle⟩

namespace Collection

theorem isClean_edit {categories : List Category} {u : Update} {l m : Link} (hl : l.IsClean)
    (h : edit categories u l = .ok m) : m.IsClean := by
  obtain ⟨url, title, hurl, htitle, rfl⟩ := edit_eq_ok_iff.mp h
  exact Link.isClean_iff.mpr ⟨isNormal_of_acceptUrl hurl, Update.acceptedTitle_eq_ok hl.title htitle⟩

theorem isClean_sanitize {l m : Link} (h : sanitize l = some m) : m.IsClean := by
  obtain ⟨url, title, hurl, htitle, rfl⟩ := sanitize_eq_some_iff.mp h
  exact Link.isClean_iff.mpr ⟨isNormal_of_acceptUrl hurl, acceptTitle_eq_ok htitle⟩

/-! ## What keeps the texts -/

/-- A change of categories, and nothing else, keeps the texts of all links. -/
theorem map_texts_map {f : Link → Link} (hf : ∀ l, ∃ categoryId, f l = { l with categoryId }) (links : List Link) :
    (links.map f).map Link.texts = links.map Link.texts := by
  rw [List.map_map]
  refine List.map_congr_left fun l _ => ?_
  obtain ⟨categoryId, hl⟩ := hf l
  rw [Function.comp_apply, hl]
  rfl

theorem map_texts_claimIds (fresh : Nat → String) (used : Nat) (taken : List String) (links : List Link) :
    (claimIds fresh used taken links).1.map Link.texts = links.map Link.texts := by
  induction links generalizing used taken with
  | nil => rfl
  | cons l links ih =>
    unfold claimIds
    dsimp only
    split
    · rw [List.map_cons, List.map_cons, ih]
      rfl
    · rw [List.map_cons, List.map_cons, ih]

theorem map_texts_of_unranked {links next : List Link} (h : (next.map Shelf.unranked).Perm (links.map Shelf.unranked)) :
    (next.map Link.texts).Perm (links.map Link.texts) := by
  have hunranked : ∀ ls : List Link, (ls.map Shelf.unranked).map Link.texts = ls.map Link.texts := by
    intro ls
    rw [List.map_map]
    rfl
  rw [← hunranked next, ← hunranked links]
  exact h.map _

/-- **A repair keeps the texts of all links.** -/
theorem texts_repair (c : Collection) : (c.repair.collection.links.map Link.texts).Perm (c.links.map Link.texts) := by
  refine (map_texts_of_unranked (links_repair_perm c)).trans (List.Perm.of_eq ?_)
  rw [← adopt_eq_settled]
  exact map_texts_map (exists_category_adopt _) _

/-- **A merge keeps the texts of all links**, of those that were there and of those that come
in. -/
theorem texts_merge (fresh : Nat → String) (c : Collection) (links : List Link) (categories : List Category) :
    ((c.merge fresh links categories).collection.links.map Link.texts).Perm ((c.links ++ links).map Link.texts) := by
  refine (map_texts_of_unranked (links_merge_perm fresh c links categories)).trans (List.Perm.of_eq ?_)
  rw [List.map_append, List.map_append, map_texts_map (exists_category_adopt _), arrivals,
    map_texts_map (exists_category_adopt _), map_texts_map (Admission.exists_category_redirect _), map_texts_claimIds]

/-- Links with the texts of clean ones are clean. -/
theorem forall_isClean_of_texts {links next : List Link} (hlinks : ∀ l ∈ links, l.IsClean)
    (h : (next.map Link.texts).Perm (links.map Link.texts)) : ∀ l ∈ next, l.IsClean := by
  intro m hm
  obtain ⟨l, hl, htexts⟩ := List.mem_map.mp (h.mem_iff.mp (List.mem_map_of_mem hm))
  exact (hlinks l hl).of_texts_eq htexts.symm

/-! ## All commands -/

variable {c next : Collection} {supply : Supply} {command : Command} {reply : Reply}

/-- **Every command leads from clean links to clean links**, whatever texts it is given. -/
theorem perform_clean (hc : ∀ l ∈ c.links, l.IsClean) (hp : c.perform supply command = .ok ⟨some next, reply⟩) :
    ∀ l ∈ next.links, l.IsClean := by
  have hfree := Shelf.rankFree_isClean c.links.length
  have hlen := Nat.le_refl c.links.length
  cases perform_change hp with
  | addLink hl => exact Shelf.RankFree.insert hc ((Draft.isClean_toLink hl).of_texts_eq rfl)
  | updateLink hu => exact hfree.update hlen hc (fun _ _ => isClean_edit) hu
  | deleteLink hr => exact hfree.remove? hlen hc hr
  | togglePin ht => exact hfree.togglePin? hlen hc ht
  | reorderLinks activeId overId categoryId => exact hfree.reorder hlen hc _ _ _
  | reorderPinned activeId overId => exact hfree.reorder hlen hc _ _ _
  | addCategory icon _ => exact hc
  | updateCategory _ _ => exact hc
  | deleteCategory _ _ =>
    refine forall_isClean_of_texts hc (List.Perm.of_eq (map_texts_map (fun l => ?_) c.links))
    unfold moveOut
    split
    · exact ⟨_, rfl⟩
    · exact ⟨l.categoryId, rfl⟩
  | importData links categories =>
    refine forall_isClean_of_texts (List.forall_mem_append.mpr ⟨hc, ?_⟩) (texts_merge _ c _ categories)
    intro m hm
    obtain ⟨l, -, hl⟩ := List.mem_filterMap.mp hm
    exact isClean_sanitize hl

theorem clean_kept : Kept (fun c => ∀ l ∈ c.links, l.IsClean) (fun _ _ _ => True) where
  seed := by decide
  repair hc := forall_isClean_of_texts hc (texts_repair _)
  perform hc _ hp := perform_clean hc hp

end Collection

namespace Store.Session

/-- **Every link has a proper address and a proper title at all times**: the address starts
with a scheme, both are without white space around them, and the title is not empty.  It is
so whatever new links, edits and imports are given, if it is so for the links that are stored
at first, and for those that somebody else puts there.  Such an address is its own stored
form. -/
theorem addresses_and_titles_clean_at_all_times (storage : Storage) (events : List Event)
    (hstored : ∀ text ∈ storage.stored Storage.dataKey, ∀ c, Collection.codec.ofText text = .ok c →
      ∀ l ∈ c.links, l.IsClean)
    (hputs : ∀ e ∈ events, ∀ text, e.request = .put Storage.dataKey (some text) →
      ∀ c, Collection.codec.ofText text = .ok c → ∀ l ∈ c.links, l.IsClean) :
    ∀ l ∈ ((opened storage).after events).store.links, l.IsClean ∧ Url.normalize l.url = some l.url := by
  have hafter := (Has.opened Collection.clean_kept hstored).after Collection.clean_kept
    (accepts_of_commands hputs fun _ _ _ _ _ _ => trivial)
  intro l hl
  have hclean := hafter.memory l hl
  exact ⟨hclean, (Link.isClean_iff.mp hclean).1⟩

/-- The first collection is stored; a link is added with white space around its texts, another
one is given an address with a scheme in capitals, and of three imported links one has no title
and one no address. -/
theorem addresses_and_titles_clean_after_import :
    let storage := Storage.empty.put Storage.dataKey (some (Collection.codec.compact Collection.seed))
    let supply : Supply := ⟨fun _ => "5b1e7c02-93d4-4f6a-8c1d-000000000000", 7, Supply.cut 16 [], Supply.cut 12 []⟩
    let link (url title : String) : Link := ⟨"", url, title, none, "dev", none, false, none, none, 0⟩
    let links := [link "a.example" " A", link "https://b.example" " ", link "" "C"]
    let commands : List Command := [
      .addLink ⟨"\u00a0lean-lang.org\u3000", "\u2003Lean", none, none, none, false⟩,
      .updateLink ⟨"1", some "HTTP://x", none, none, none, none, none⟩,
      .importData links []]
    let events := commands.map fun command => Event.mk (.command supply command) false false
    ∀ l ∈ ((opened storage).after events).store.links, l.IsClean ∧ Url.normalize l.url = some l.url := by
  intro storage supply link links commands events
  refine addresses_and_titles_clean_at_all_times storage events ?_ ?_
  · intro text htext c hread
    rw [Storage.stored_put_self] at htext
    obtain rfl := Option.some.inj htext
    rw [Collection.ofText_compact_eq hread]
    exact Collection.clean_kept.seed
  · intro e he text hput
    obtain ⟨command, -, rfl⟩ := List.mem_map.mp he
    cases hput

end Store.Session

end Bookmarks
