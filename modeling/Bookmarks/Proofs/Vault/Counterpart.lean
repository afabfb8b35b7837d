import Bookmarks.Proofs.Link.Edit
import Bookmarks.Proofs.Store.Session
import Bookmarks.Proofs.Vault.Atomic
import Mathlib.Data.List.Forall2

/-! # The vault and the store do the same to links

Every command on the private links has a counterpart among the commands on a collection:
the same command in the private category.  **On private links the two come to the same**
(`perform_counterpart`), though they are not the same program: the vault puts links into
its category where the store looks the category up, the store brings the address of an
edited link into its stored form again where the vault leaves it, and only the vault
knows its scope without asking.

A link that the vault holds is in the private category and has its address in the stored
form, and the commands keep it so (`perform_isPrivate`).  The agreement therefore goes
on from command to command, for as long as both storages take what is written.
-/
namespace Bookmarks

/-- A link as the vault keeps it. -/
structure Link.IsPrivate (l : Link) : Prop where
  url : Url.IsNormal l.url
  category : l.categoryId = Category.privateId

/-- The command on a collection that stands for a command on the private links. -/
def VaultCommand.counterpart : VaultCommand → Command
  | .add draft => .addLink { draft with categoryId := some Category.privateId }
  | .update u => .updateLink { u with categoryId := none }
  | .delete id => .deleteLink id
  | .togglePin id => .togglePin id
  | .reorder activeId overId => .reorderLinks activeId overId Category.privateId
  | .reorderPinned activeId overId => .reorderPinned activeId overId

/-- The reply of the store that stands for a reply of the vault. -/
def VaultReply.counterpart : VaultReply → Reply
  | .created id => .created id
  | _ => .done

/-! ## Edits -/

/-- Bringing an address that is in its stored form into it again makes no difference. -/
theorem Collection.edit_eq_editLink (categories : List Category) (u : Update) {l : Link} (h : Url.IsNormal l.url) :
    edit categories { u with categoryId := none } l = VaultCommand.editLink u l := by
  unfold edit VaultCommand.editLink
  cases u.url with
  | some url => rfl
  | none =>
    dsimp only [Option.getD_none]
    rw [acceptUrl_of_isNormal h]
    rfl

/-- An update only asks for the edit of a link of the shelf. -/
theorem Shelf.update_congr {links : Shelf} {u : Update} {edit edit' : Link → Except InvalidLink Link}
    (h : ∀ l ∈ links, edit l = edit' l) : update links u edit = update links u edit' := by
  unfold update
  cases hfind : links.find? (·.id == u.id) with
  | none => rfl
  | some l =>
    dsimp only
    rw [h l (List.mem_of_find?_eq_some hfind)]

theorem Draft.isNormal_toLink {d : Draft} {id categoryId : String} {now : Int} {l : Link}
    (h : d.toLink id now categoryId = .ok l) : Url.IsNormal l.url ∧ l.categoryId = categoryId := by
  obtain ⟨url, title, hurl, -, rfl⟩ := toLink_eq_ok_iff.mp h
  exact ⟨isNormal_of_acceptUrl hurl, rfl⟩

theorem Collection.isNormal_edit {categories : List Category} {u : Update} {l m : Link}
    (h : edit categories { u with categoryId := none } l = .ok m) :
    Url.IsNormal m.url ∧ m.categoryId = l.categoryId := by
  obtain ⟨url, title, hurl, -, rfl⟩ := edit_eq_ok_iff.mp h
  exact ⟨isNormal_of_acceptUrl hurl, rfl⟩

/-! ## One command -/

namespace VaultCommand
variable {supply : Supply} {links next : Shelf} {command : VaultCommand} {reply : VaultReply}

theorem rankFree_isPrivate (bound : Nat) : Shelf.RankFree bound Link.IsPrivate where
  order _ _ _ h := ⟨h.url, h.category⟩
  pin _ _ _ _ h := ⟨h.url, h.category⟩

/-- What a command makes of private links are private links. -/
theorem perform_isPrivate (hlinks : ∀ l ∈ links, l.IsPrivate) (hp : command.perform supply links = .ok (next, reply)) :
    ∀ l ∈ next, l.IsPrivate := by
  refine forall_perform (rankFree_isPrivate links.length) (Nat.le_refl _) hlinks (fun draft l hl => ?_)
    (fun u l m hl he => ?_) hp
  · obtain ⟨hurl, hcategory⟩ := Draft.isNormal_toLink hl
    exact ⟨hurl, hcategory⟩
  · obtain ⟨hurl, hcategory⟩ := Collection.isNormal_edit ((Collection.edit_eq_editLink [] u hl.url).trans he)
    exact ⟨hurl, hcategory.trans hl.category⟩

/-- A command is answered that it is done, or with the id of what was made. -/
theorem perform_reply (hp : command.perform supply links = .ok (next, reply)) :
    reply = .done ∨ ∃ id, reply = .created id := by
  cases command with
  | add draft =>
    obtain ⟨links', -, heq⟩ := ok_of_map hp
    exact .inr ⟨_, (Prod.mk.inj heq).2.symm⟩
  | update | delete | togglePin =>
    obtain ⟨links', -, heq⟩ := ok_of_map hp
    exact .inl (Prod.mk.inj heq).2.symm
  | reorder | reorderPinned => exact .inl (Prod.mk.inj (Except.ok.inj hp)).2.symm

end VaultCommand

namespace Collection
variable {c : Collection} {command : VaultCommand}

/-- The effect of a command on links that is no reordering: there is a next collection even
if its links are the same. -/
theorem linkEffect_counterpart (hreorder : command.isReorder = false) (reply : VaultReply) (r : Except LinkError Shelf) :
    c.linkEffect reply.counterpart r =
      match r.map fun next => (next, reply) with
      | .error e => .error (.ofLink e)
      | .ok (next, reply) =>
        .ok ⟨if command.isReorder ∧ next = c.links then none else some (c.withLinks next), reply.counterpart⟩ := by
  rw [hreorder]
  cases r with
  | error e => rfl
  | ok next => simp [linkEffect, Except.map]

theorem orderEffect_counterpart (hreorder : command.isReorder = true) (next : Shelf) :
    c.orderEffect next = ⟨if command.isReorder ∧ next = c.links then none else some (c.withLinks next), .done⟩ := by
  unfold orderEffect
  by_cases hsame : next = c.links
  · rw [if_pos hsame, if_pos ⟨hreorder, hsame⟩]
  · rw [if_neg hsame, if_neg fun h => hsame h.2]

/-- **On private links a command and its counterpart come to the same.** -/
theorem perform_counterpart (hlinks : ∀ l ∈ c.links, l.IsPrivate)
    (hknown : Category.isKnown c.categories Category.privateId = true) (supply : Supply) (command : VaultCommand) :
    c.perform supply command.counterpart =
      match command.perform supply c.links with
      | .error e => .error (.ofLink e)
      | .ok (next, reply) =>
        .ok ⟨if command.isReorder ∧ next = c.links then none else some (c.withLinks next), reply.counterpart⟩ := by
  cases command with
  | add draft =>
    have hresolve : Category.resolve c.categories (some Category.privateId) = Category.privateId := if_pos hknown
    simp only [VaultCommand.counterpart, perform, hresolve]
    exact linkEffect_counterpart rfl (.created (supply.id 0)) _
  | update u =>
    have hupdate : Shelf.update c.links { u with categoryId := none } (edit c.categories { u with categoryId := none }) =
        Shelf.update c.links u (VaultCommand.editLink u) :=
      Shelf.update_congr fun l hl => edit_eq_editLink c.categories u (hlinks l hl).url
    simp only [VaultCommand.counterpart, perform, hupdate]
    exact linkEffect_counterpart rfl .done _
  | delete id => exact linkEffect_counterpart rfl .done _
  | togglePin id => exact linkEffect_counterpart rfl .done _
  | reorder activeId overId | reorderPinned activeId overId =>
    exact congrArg Except.ok (orderEffect_counterpart rfl _)

end Collection

end Bookmarks
