import Bookmarks.Proofs.Collection.Redirected

/-! # Where categories come from

A category is not made up: it is one of the first ones, or was stored, or a command brought it
in.  `Command.newCategories` lists what a command brings in if it is not rejected, and **those
are all categories that a command adds** (`mem_categories_perform`); an import adds every one of
them (`categories_merge`).
-/
namespace Bookmarks

/-- The categories that a command brings in, if it is not rejected. -/
def Command.newCategories (supply : Supply) (c : Collection) : Command → List Category
  | .addCategory name icon => [⟨supply.id 0, Text.trim name, icon⟩]
  | .updateCategory category => [category]
  | .importData _ categories => Category.newAmong (Category.withCommonFirst c.categories) categories
  | _ => []

theorem Category.mem_withCommonFirst {categories : List Category} {k : Category}
    (h : k ∈ withCommonFirst categories) : k = common ∨ k ∈ categories := by
  unfold withCommonFirst at h
  rcases List.mem_cons.mp h with rfl | hk
  · cases hfound : categories.find? (·.id == commonId) with
    | none => exact Or.inl rfl
    | some first => exact Or.inr (List.mem_of_find?_eq_some hfound)
  · exact Or.inr (List.mem_filter.mp hk).1

theorem Category.newAmong_subset {present incoming : List Category} : newAmong present incoming ⊆ incoming := by
  induction incoming generalizing present with
  | nil => exact List.Subset.refl _
  | cons c incoming ih =>
    rw [newAmong]
    split
    · exact List.subset_cons_of_subset c ih
    · exact List.cons_subset_cons c ih

namespace Collection

variable {c next : Collection} {supply : Supply} {command : Command} {reply : Reply} {k : Category}

/-- A repair brings in no category but the first ones. -/
theorem mem_categories_repair (h : k ∈ c.repair.collection.categories) : k ∈ Category.defaults ∨ k ∈ c.categories := by
  have hcommon : Category.common ∈ Category.defaults := List.mem_cons_self
  rw [categories_repair] at h
  rcases Category.mem_withCommonFirst h with rfl | hk
  · exact Or.inl hcommon
  · unfold givenCategories at hk
    split at hk
    · exact Or.inl hk
    · exact Or.inr hk

theorem categories_merge (fresh : Nat → String) (c : Collection) (links : List Link) (categories : List Category) :
    (c.merge fresh links categories).collection.categories =
      Category.withCommonFirst c.categories ++ Category.newAmong (Category.withCommonFirst c.categories) categories :=
  Admission.categories_takeInAll c.categories categories

/-- **A command adds no category but those that it brings in**, and the common one where that
is missing. -/
theorem mem_categories_perform (hp : c.perform supply command = .ok ⟨some next, reply⟩) (h : k ∈ next.categories) :
    k = Category.common ∨ k ∈ c.categories ∨ k ∈ command.newCategories supply c := by
  cases perform_change hp with
  | addLink _ => exact Or.inr (Or.inl h)
  | updateLink _ => exact Or.inr (Or.inl h)
  | deleteLink _ => exact Or.inr (Or.inl h)
  | togglePin _ => exact Or.inr (Or.inl h)
  | reorderLinks _ _ _ => exact Or.inr (Or.inl h)
  | reorderPinned _ _ => exact Or.inr (Or.inl h)
  | addCategory icon _ => exact Or.inr (List.mem_append.mp h)
  | updateCategory hm _ =>
    obtain ⟨old, hold⟩ := Sequence.find?_of_modifyFirst? hm
    rcases Sequence.mem_modifyFirst? hm hold h with hk | rfl
    · exact Or.inr (Or.inl hk)
    · exact Or.inr (Or.inr (List.mem_singleton_self _))
  | deleteCategory _ _ =>
    exact (Category.mem_withCommonFirst h).imp_right fun hk => Or.inl (List.mem_filter.mp hk).1
  | importData links categories =>
    rw [categories_merge] at h
    rcases List.mem_append.mp h with hk | hk
    · exact (Category.mem_withCommonFirst hk).imp_right Or.inl
    · exact Or.inr (Or.inr hk)

end Collection

end Bookmarks
