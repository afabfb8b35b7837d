import Bookmarks.Proofs.Collection.Again

/-! # Distinct ids

Every command finds what it is about by an id, so that **no two links may have the same id,
and no two categories** (`Distinct`).  Links and categories from elsewhere come with ids of
their own, which may be empty, stand several times or be taken; also an id that was drawn for
one link may be the one that the next link comes with.

A command can only be blamed for the ids that it draws.  `Command.draws` lists them, each
with the ids that are taken when it is drawn, and a command `DrawsFresh` if none of them is
among those.  Then it leads from distinct ids to distinct ids (`Distinct.perform`), whatever
ids it is given.
-/
namespace Bookmarks

/-! ## Drawing -/

/-- An id that is drawn, and the ids that are taken by then. -/
structure Draw where
  id : String
  taken : List String
  deriving DecidableEq, Repr

namespace Collection

/-- No two links have the same id, and no two categories. -/
structure Distinct (c : Collection) : Prop where
  links : (c.links.map (·.id)).Nodup
  categories : (c.categories.map (·.id)).Nodup

/-- What is drawn for links whose ids are claimed, where `used` ids are spent already: one id
for each link whose own is empty, or taken by then. -/
def claimDraws (fresh : Nat → String) (used : Nat) (taken : List String) : List Link → List Draw
  | [] => []
  | l :: links =>
    if taken.contains l.id || l.id == "" then
      ⟨fresh used, taken⟩ :: claimDraws fresh (used + 1) (fresh used :: taken) links
    else claimDraws fresh used (l.id :: taken) links

end Collection

/-- What a command draws. -/
def Command.draws (supply : Supply) (c : Collection) : Command → List Draw
  | .addLink _ => [⟨supply.id 0, c.links.map (·.id)⟩]
  | .addCategory _ _ => [⟨supply.id 0, c.categories.map (·.id)⟩]
  | .importData links _ =>
    Collection.claimDraws supply.id 0 (c.links.map (·.id)) (links.filterMap Collection.sanitize)
  | _ => []

/-- No id that a command draws is taken by then. -/
def Command.DrawsFresh (supply : Supply) (c : Collection) (command : Command) : Prop :=
  ∀ d ∈ command.draws supply c, d.id ∉ d.taken

instance (supply : Supply) (c : Collection) (command : Command) : Decidable (command.DrawsFresh supply c) :=
  inferInstanceAs (Decidable (∀ d ∈ command.draws supply c, d.id ∉ d.taken))

/-! ## Categories -/

namespace Category
variable {categories : List Category}

theorem ids_withCommonFirst_nodup (h : (categories.map (·.id)).Nodup) :
    ((withCommonFirst categories).map (·.id)).Nodup := by
  obtain ⟨c, rest, heq, hc, hrest⟩ := withCommonFirst_headed categories
  have hfiltered : categories.filter (·.id != commonId) = rest := (List.cons.inj heq).2
  rw [heq, List.map_cons, List.nodup_cons]
  constructor
  · intro hmem
    obtain ⟨d, hd, hid⟩ := List.mem_map.mp hmem
    exact hrest d hd (hid.trans hc)
  · rw [← hfiltered]
    exact h.sublist (List.filter_sublist.map _)

/-- One more category keeps the ids distinct if its own is not known. -/
theorem ids_append_nodup (h : (categories.map (·.id)).Nodup) {c : Category} (hc : isKnown categories c.id = false) :
    ((categories ++ [c]).map (·.id)).Nodup := by
  rw [List.map_append]
  refine List.nodup_append'.mpr ⟨h, List.nodup_singleton _, List.disjoint_singleton.mpr fun hmem => ?_⟩
  have hknown : isKnown categories c.id = true := isKnown_iff.mpr (List.mem_map.mp hmem)
  rw [hc] at hknown
  cases hknown

end Category

namespace Collection

theorem Admission.ids_takeIn_nodup {a : Admission} (h : (a.categories.map (·.id)).Nodup) (c : Category) :
    ((a.takeIn c).categories.map (·.id)).Nodup := by
  unfold Admission.takeIn
  cases hknown : Category.isKnown a.categories c.id with
  | true => exact h
  | false =>
    cases a.categories.find? (·.name == c.name) with
    | some same => exact h
    | none => exact Category.ids_append_nodup h hknown

/-- Whatever ids categories come with, those that are taken in have distinct ones. -/
theorem Admission.ids_takeInAll_nodup {existing : List Category} (h : (existing.map (·.id)).Nodup)
    (incoming : List Category) : ((takeInAll existing incoming).categories.map (·.id)).Nodup := by
  unfold takeInAll
  have hstart : ((Admission.mk (Category.withCommonFirst existing) [] 0).categories.map (·.id)).Nodup :=
    Category.ids_withCommonFirst_nodup h
  generalize Admission.mk (Category.withCommonFirst existing) [] 0 = a at hstart
  induction incoming generalizing a with
  | nil => exact hstart
  | cons c incoming ih => exact ih _ (ids_takeIn_nodup hstart c)

/-! ## Links -/

section
variable {fresh : Nat → String} {links : List Link} {taken : List String} {used : Nat}

/-- **Claimed ids are distinct, and none of them was taken before**, if every id that is
drawn is free when it is drawn.  By induction on the links: an id that was given or drawn is
taken from then on. -/
theorem ids_claimIds_nodup (h : ∀ d ∈ claimDraws fresh used taken links, d.id ∉ d.taken) :
    ((claimIds fresh used taken links).1.map (·.id)).Nodup ∧
      ∀ id ∈ (claimIds fresh used taken links).1.map (·.id), id ∉ taken := by
  induction links generalizing used taken with
  | nil => exact ⟨List.nodup_nil, nofun⟩
  | cons l links ih =>
    have hcons : ∀ {id : String} {ids : List String}, id ∉ taken → ids.Nodup → (∀ i ∈ ids, i ∉ id :: taken) →
        (id :: ids).Nodup ∧ ∀ i ∈ id :: ids, i ∉ taken := by
      intro id ids hid hids htaken
      refine ⟨List.nodup_cons.mpr ⟨fun hmem => htaken id hmem List.mem_cons_self, hids⟩, ?_⟩
      exact List.forall_mem_cons.mpr ⟨hid, fun i hi hmem => htaken i hi (List.mem_cons_of_mem _ hmem)⟩
    unfold claimDraws at h
    unfold claimIds
    by_cases hclash : (taken.contains l.id || l.id == "") = true
    · rw [if_pos hclash] at h ⊢
      obtain ⟨hdrawn, hlater⟩ := List.forall_mem_cons.mp h
      obtain ⟨hids, htaken⟩ := ih hlater
      exact hcons hdrawn hids htaken
    · rw [if_neg hclash] at h ⊢
      obtain ⟨hids, htaken⟩ := ih h
      have hfree : l.id ∉ taken := fun hmem => hclash (by rw [List.contains_iff_mem.mpr hmem, Bool.true_or])
      exact hcons hfree hids htaken

theorem Admission.id_redirect (a : Admission) (l : Link) : (a.redirect l).id = l.id := by
  unfold redirect
  split <;> rfl

theorem id_moveOut (id : String) (l : Link) : (moveOut id l).id = l.id := by
  unfold moveOut
  split <;> rfl

end

end Collection

namespace Shelf

theorem ids_adoptOrphans (categories : List Category) (links : Shelf) :
    (adoptOrphans categories links).map (·.id) = links.map (·.id) := by
  have hid : ∀ l : Link, (adopt categories l).id = l.id := by
    intro l
    unfold adopt
    split <;> rfl
  unfold adoptOrphans
  rw [List.map_map]
  exact List.map_congr_left fun l _ => hid l

/-- Arranging links, with those of unknown categories in the common one, keeps their ids. -/
theorem ids_settled (categories : List Category) (links : Shelf) :
    ((sort (compactPins (adoptOrphans categories links))).map (·.id)).Perm (links.map (·.id)) := by
  rw [← ids_adoptOrphans categories links, ← ids_compactPins (adoptOrphans categories links)]
  exact (sort_perm _).map _

end Shelf

namespace Collection
variable {c next : Collection} {supply : Supply} {command : Command}

/-- The ids that a merge adds are those that are claimed. -/
theorem ids_incoming (fresh : Nat → String) (c : Collection) (links : List Link) (categories : List Category) :
    (c.incoming fresh links categories).map (·.id) =
      (claimIds fresh 0 (c.links.map (·.id)) links).1.map (·.id) := by
  have hrank : ∀ (k : Nat) (l : Link),
      (Shelf.withPinnedOrder (Shelf.pinnedCount (Shelf.compactPins c.links) + k) l).id = l.id := fun _ _ => rfl
  unfold incoming rankPinsFrom
  rw [Sequence.map_renumber hrank, Shelf.ids_compactPins, List.map_map]
  exact List.map_congr_left fun l _ => Admission.id_redirect _ l

/-! ## Commands -/

theorem seed_distinct : seed.Distinct := ⟨by decide, by decide⟩

/-- A repair keeps the ids of the links, and those of the categories but for the common
one. -/
theorem Distinct.repair (h : c.Distinct) : c.repair.collection.Distinct where
  links := (Shelf.ids_settled _ c.links).nodup_iff.mpr h.links
  categories := by
    refine Category.ids_withCommonFirst_nodup ?_
    split
    · exact seed_distinct.categories
    · exact h.categories

theorem Distinct.withLinks (h : c.Distinct) {links : Shelf} (hlinks : (links.map (·.id)).Nodup) :
    (c.withLinks links).Distinct :=
  ⟨hlinks, h.categories⟩

theorem Distinct.deleteCategory (h : c.Distinct) (id : String) :
    Distinct ⟨c.links.map (moveOut id), Category.withCommonFirst (c.categories.filter (·.id != id))⟩ where
  links := by
    have hids : (c.links.map (moveOut id)).map (·.id) = c.links.map (·.id) := by
      rw [List.map_map]
      exact List.map_congr_left fun l _ => id_moveOut id l
    exact hids ▸ h.links
  categories := Category.ids_withCommonFirst_nodup (h.categories.sublist (List.filter_sublist.map _))

/-- A merge keeps the ids distinct, whatever ids links and categories come with. -/
theorem Distinct.merge (h : c.Distinct) {fresh : Nat → String} {links : List Link}
    (hfresh : ∀ d ∈ claimDraws fresh 0 (c.links.map (·.id)) links, d.id ∉ d.taken) (categories : List Category) :
    (c.merge fresh links categories).collection.Distinct where
  links := by
    obtain ⟨all, heq⟩ := links_merge fresh c links categories
    obtain ⟨hclaimed, htaken⟩ := ids_claimIds_nodup hfresh
    rw [heq, (Shelf.ids_settled all _).nodup_iff, List.map_append, Shelf.ids_compactPins, ids_incoming]
    exact List.nodup_append'.mpr ⟨h.links, hclaimed, fun id hid hclaim => htaken id hclaim hid⟩
  categories := Admission.ids_takeInAll_nodup h.categories categories

/-- **A command that draws fresh ids leads from distinct ids to distinct ids.** -/
theorem Distinct.perform (h : c.Distinct) (hfresh : command.DrawsFresh supply c) {reply : Reply}
    (hp : c.perform supply command = .ok ⟨some next, reply⟩) : next.Distinct := by
  cases perform_change hp with
  | addLink hl =>
    have hdrawn : supply.id 0 ∉ c.links.map (·.id) := hfresh _ List.mem_cons_self
    obtain ⟨url, title, rfl⟩ := Draft.toLink_eq_ok hl
    refine h.withLinks (((Shelf.insert_perm c.links _).map _).nodup_iff.mpr ?_)
    exact List.nodup_cons.mpr ⟨hdrawn, h.links⟩
  | updateLink hu =>
    exact h.withLinks ((Shelf.ids_update (edit_settles c.categories _).id hu).nodup_iff.mpr h.links)
  | deleteLink hd => exact h.withLinks (h.links.sublist (Shelf.ids_remove? hd))
  | togglePin ht => exact h.withLinks ((Shelf.ids_togglePin? ht).nodup_iff.mpr h.links)
  | reorderLinks activeId overId categoryId =>
    exact h.withLinks ((Shelf.ids_reorder c.links activeId overId _).nodup_iff.mpr h.links)
  | reorderPinned activeId overId =>
    exact h.withLinks ((Shelf.ids_reorder c.links activeId overId .pinned).nodup_iff.mpr h.links)
  | addCategory icon _ =>
    have hdrawn : supply.id 0 ∉ c.categories.map (·.id) := hfresh _ List.mem_cons_self
    refine ⟨h.links, Category.ids_append_nodup h.categories (Bool.eq_false_iff.mpr fun hknown => hdrawn ?_)⟩
    exact List.mem_map.mpr (Category.isKnown_iff.mp hknown)
  | updateCategory hm _ => exact ⟨h.links, Category.ids_modifyFirst? hm ▸ h.categories⟩
  | deleteCategory _ _ => exact h.deleteCategory _
  | importData links categories => exact h.merge hfresh categories

end Collection

end Bookmarks
