import Bookmarks.Proofs.Shelf.Again
import Bookmarks.Proofs.Vault.Counterpart

/-! # The normal form of private links

Unlocking takes the links as they were sealed and repairs nothing.  That they are in order
then, with their pins counted, with ids that tell them apart, and with addresses and titles
as they are accepted, is only because they were so when they were sealed: **every command on
private links keeps their normal form** (`VaultCommand.perform_normalForm`), as long as the
id that a new link is given is not the id of another one.
-/
namespace Bookmarks

/-- The links of a vault as they are to be: they stand as they are compared, the pins have the
ranks `0, 1, …, n - 1` and no other link has one, all are in the private category, no two have
the same id, and addresses and titles are in the form in which they are stored. -/
structure NormalForm (links : List Link) : Prop where
  shown : links.Pairwise fun a b => (a.compare b).isLE
  ranks : ((links.filter (·.pinned)).map (·.pinnedOrder)).Perm
    ((List.range (links.countP (·.pinned))).map fun k : Nat => some (k : Int))
  unranked : ∀ l ∈ links, l.pinned = false → l.pinnedOrder = none
  category : ∀ l ∈ links, l.categoryId = "private"
  ids : (links.map (·.id)).Nodup
  url : ∀ l ∈ links, Url.normalize l.url = some l.url
  title : ∀ l ∈ links, l.title ≠ "" ∧ Text.trim l.title = l.title

/-- A private link with a title in the form in which it is stored. -/
structure Link.IsAccepted (l : Link) : Prop extends l.IsPrivate where
  title : l.title ≠ "" ∧ Text.IsTrimmed l.title

theorem normalForm_iff {links : List Link} :
    NormalForm links ↔ Shelf.Arranged links ∧ (links.map (·.id)).Nodup ∧ ∀ l ∈ links, l.IsAccepted := by
  constructor
  · intro h
    exact ⟨⟨⟨h.ranks, h.unranked⟩, h.shown⟩, h.ids,
      fun l hl => ⟨⟨h.url l hl, h.category l hl⟩, h.title l hl⟩⟩
  · rintro ⟨⟨⟨hranks, hunranked⟩, hshown⟩, hids, haccepted⟩
    exact ⟨hshown, hranks, hunranked, fun l hl => (haccepted l hl).category, hids, fun l hl => (haccepted l hl).url,
      fun l hl => (haccepted l hl).title⟩

/-- A vault without links is in normal form. -/
theorem normalForm_nil : NormalForm [] :=
  ⟨List.Pairwise.nil, List.Perm.refl _, List.forall_mem_nil _, List.forall_mem_nil _, List.nodup_nil,
    List.forall_mem_nil _, List.forall_mem_nil _⟩

theorem Draft.isAccepted_toLink {d : Draft} {id : String} {now : Int} {l : Link}
    (h : d.toLink id now Category.privateId = .ok l) : l.IsAccepted := by
  obtain ⟨url, title, hurl, htitle, rfl⟩ := toLink_eq_ok_iff.mp h
  exact ⟨⟨isNormal_of_acceptUrl hurl, rfl⟩, acceptTitle_eq_ok htitle⟩

/-! ## Commands -/

namespace VaultCommand
variable {supply : Supply} {links next : Shelf} {command : VaultCommand} {reply : VaultReply}

theorem isAccepted_editLink {u : Update} {l m : Link} (hl : l.IsAccepted) (h : editLink u l = .ok m) :
    m.IsAccepted := by
  have hedit := (Collection.edit_eq_editLink [] u hl.url).trans h
  obtain ⟨url, title, hurl, htitle, rfl⟩ := Collection.edit_eq_ok_iff.mp hedit
  exact ⟨⟨isNormal_of_acceptUrl hurl, hl.category⟩, Update.acceptedTitle_eq_ok hl.title htitle⟩

theorem rankFree_isAccepted (bound : Nat) : Shelf.RankFree bound Link.IsAccepted where
  order _ _ _ h := ⟨⟨h.url, h.category⟩, h.title⟩
  pin _ _ _ _ h := ⟨⟨h.url, h.category⟩, h.title⟩

theorem editLink_keepsPlace (u : Update) : Shelf.KeepsPlace (editLink u) := by
  intro l m h
  obtain ⟨url, title, rfl⟩ := editLink_eq_ok h
  exact ⟨rfl, rfl⟩

theorem id_editLink {u : Update} {l m : Link} (h : editLink u l = .ok m) : m.id = l.id := by
  obtain ⟨url, title, rfl⟩ := editLink_eq_ok h
  rfl

theorem Becomes.arranged (h : Becomes supply links command next) (hlinks : Shelf.Arranged links) :
    Shelf.Arranged next := by
  cases h with
  | @add _ l _ => exact Shelf.insert_arranged hlinks l
  | @update u _ h => exact Shelf.update_arranged hlinks (editLink_keepsPlace u) h
  | delete h => exact Shelf.remove?_arranged hlinks h
  | togglePin h => exact Shelf.togglePin?_arranged h
  | reorder activeId overId => exact Shelf.reorder_arranged hlinks activeId overId _
  | reorderPinned activeId overId => exact Shelf.reorder_arranged hlinks activeId overId _

/-- Only a new link brings an id in. -/
theorem Becomes.nodup (h : Becomes supply links command next) (hids : (links.map (·.id)).Nodup)
    (hfresh : ∀ draft, command = .add draft → supply.id 0 ∉ links.map (·.id)) : (next.map (·.id)).Nodup := by
  cases h with
  | @add draft l hl =>
    obtain ⟨url, title, rfl⟩ := Draft.toLink_eq_ok hl
    exact ((Shelf.insert_perm links _).map _).nodup_iff.mpr (List.nodup_cons.mpr ⟨hfresh draft rfl, hids⟩)
  | update h => exact (Shelf.ids_update (fun l m => id_editLink) h).nodup_iff.mpr hids
  | delete h => exact hids.sublist (Shelf.ids_remove? h)
  | togglePin h => exact (Shelf.ids_togglePin? h).nodup_iff.mpr hids
  | reorder activeId overId => exact (Shelf.ids_reorder links activeId overId _).nodup_iff.mpr hids
  | reorderPinned activeId overId => exact (Shelf.ids_reorder links activeId overId _).nodup_iff.mpr hids

/-- **Every command keeps private links in normal form**, if it is not given the id of one of
them for a new one. -/
theorem perform_normalForm (h : NormalForm links)
    (hfresh : ∀ draft, command = .add draft → supply.id 0 ∉ links.map (·.id))
    (hp : command.perform supply links = .ok (next, reply)) : NormalForm next := by
  obtain ⟨harranged, hids, haccepted⟩ := normalForm_iff.mp h
  have hnext := perform_becomes hp
  refine normalForm_iff.mpr ⟨hnext.arranged harranged, hnext.nodup hids hfresh, ?_⟩
  refine forall_perform (rankFree_isAccepted links.length) (Nat.le_refl _) haccepted (fun draft l hl => ?_)
    (fun u l m hl he => isAccepted_editLink hl he) hp
  have hl := Draft.isAccepted_toLink hl
  exact ⟨⟨hl.url, hl.category⟩, hl.title⟩

end VaultCommand

end Bookmarks
