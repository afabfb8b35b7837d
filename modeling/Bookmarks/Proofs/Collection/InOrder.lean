import Bookmarks.Proofs.Collection.Changes

/-! # Collections in order

A collection is in order when the common category is the first and the only one of
its id, every link belongs to a category of the collection, and the links are an
arranged shelf.

Three statements say all that the store needs to know.  Repairing brings **any**
collection into order (`repair_inOrder`); it changes nothing about one that is in
order already (`InOrder.repair_eq`); and every command leads from a collection in
order to one in order (`InOrder.perform`).  The only thing that is asked of the
supply is that it does not draw the id of the common category.
-/
namespace Bookmarks

/-! ## Headed lists of categories -/

namespace Category
variable {categories categories' : List Category} {id : String}

/-- The common category comes first, and there is no other of its id. -/
def Headed (categories : List Category) : Prop :=
  ∃ c rest, categories = c :: rest ∧ c.id = commonId ∧ ∀ d ∈ rest, d.id ≠ commonId

theorem isKnown_iff : isKnown categories id ↔ ∃ c ∈ categories, c.id = id := by
  simp [isKnown]

theorem Headed.isKnown_common (h : Headed categories) : isKnown categories commonId := by
  obtain ⟨c, rest, rfl, hc, -⟩ := h
  exact isKnown_iff.mpr ⟨c, List.mem_cons_self, hc⟩

/-- The common category is put before the others, which keep their order; it is made up only if
there is none. -/
theorem withCommonFirst_eq_cons (categories : List Category) :
    ∃ first, withCommonFirst categories = first :: categories.filter (·.id != commonId) ∧ first.id = commonId ∧
      ((∃ p ∈ categories, p.id = commonId) → first ∈ categories) := by
  refine ⟨(categories.find? (·.id == commonId)).getD common, rfl, ?_⟩
  cases hfound : categories.find? (·.id == commonId) with
  | none =>
    refine ⟨rfl, ?_⟩
    rintro ⟨p, hp, hid⟩
    exact absurd (beq_iff_eq.mpr hid) (List.find?_eq_none.mp hfound p hp)
  | some first =>
    have hid : first.id = commonId := by simpa using List.find?_some hfound
    exact ⟨hid, fun _ => List.mem_of_find?_eq_some hfound⟩

theorem withCommonFirst_headed (categories : List Category) : Headed (withCommonFirst categories) := by
  obtain ⟨first, heq, hid, -⟩ := withCommonFirst_eq_cons categories
  exact ⟨first, _, heq, hid, fun d hd => by simpa using (List.mem_filter.mp hd).2⟩

/-- A headed list is left as it is. -/
theorem Headed.withCommonFirst_eq (h : Headed categories) : withCommonFirst categories = categories := by
  obtain ⟨c, rest, rfl, hc, hrest⟩ := h
  have hfilter : rest.filter (·.id != commonId) = rest := by
    refine List.filter_eq_self.mpr fun d hd => ?_
    simpa using hrest d hd
  simp [withCommonFirst, hc, hfilter]

theorem isKnown_withCommonFirst :
    isKnown (withCommonFirst categories) id ↔ id = commonId ∨ isKnown categories id := by
  by_cases hid : id = commonId
  · subst hid
    exact iff_of_true (withCommonFirst_headed categories).isKnown_common (Or.inl rfl)
  · -- of any other id the categories are those of before, in another place at most
    rw [or_iff_right hid, isKnown_iff, isKnown_iff]
    constructor
    · rintro ⟨c, hc, rfl⟩
      rcases List.mem_cons.mp hc with rfl | hc
      · obtain ⟨d, rest, heq, hd, -⟩ := withCommonFirst_headed categories
        exact absurd ((List.cons.inj heq).1 ▸ hd) hid
      · exact ⟨c, (List.mem_filter.mp hc).1, rfl⟩
    · rintro ⟨c, hc, rfl⟩
      exact ⟨c, List.mem_cons_of_mem _ (List.mem_filter.mpr ⟨hc, by simpa using hid⟩), rfl⟩

/-- One more category of another id keeps the list headed. -/
theorem Headed.append (h : Headed categories) {c : Category} (hc : c.id ≠ commonId) :
    Headed (categories ++ [c]) := by
  obtain ⟨d, rest, rfl, hd, hrest⟩ := h
  refine ⟨d, rest ++ [c], rfl, hd, fun e he => ?_⟩
  rcases List.mem_append.mp he with he | he
  · exact hrest e he
  · rw [List.mem_singleton.mp he]
    exact hc

theorem Headed.of_ids_eq (h : Headed categories) (hids : categories.map (·.id) = categories'.map (·.id)) :
    Headed categories' := by
  obtain ⟨c, rest, rfl, hc, hrest⟩ := h
  cases categories' with
  | nil => simp at hids
  | cons c' rest' =>
    rw [List.map_cons, List.map_cons, List.cons.injEq] at hids
    refine ⟨c', rest', rfl, hids.1 ▸ hc, fun d hd => ?_⟩
    obtain ⟨e, he, heq⟩ := List.mem_map.mp (hids.2 ▸ List.mem_map_of_mem hd)
    exact heq ▸ hrest e he

theorem isKnown_of_ids_eq (hids : categories.map (·.id) = categories'.map (·.id)) (id : String) :
    isKnown categories id = isKnown categories' id := by
  have hany : ∀ cs : List Category, isKnown cs id = (cs.map (·.id)).any (· == id) := by
    intro cs
    rw [List.any_map]
    rfl
  rw [hany, hany, hids]

/-- A category that takes the place of the one of its id leaves the ids as they are. -/
theorem ids_modifyFirst? {c : Category}
    (h : Sequence.modifyFirst? (·.id == c.id) (fun _ => c) categories = some categories') :
    categories'.map (·.id) = categories.map (·.id) := by
  obtain ⟨old, hold⟩ := Sequence.find?_of_modifyFirst? h
  have hid : old.id = c.id := by simpa using List.find?_some hold
  exact Sequence.map_modifyFirst? h hold hid.symm

theorem isKnown_append_left (h : isKnown categories id) (more : List Category) :
    isKnown (categories ++ more) id := by
  obtain ⟨c, hc, hid⟩ := isKnown_iff.mp h
  exact isKnown_iff.mpr ⟨c, List.mem_append_left _ hc, hid⟩

/-- A category that was asked for is one of the list. -/
theorem Headed.isKnown_resolve (h : Headed categories) (asked : Option String) :
    isKnown categories (resolve categories asked) := by
  unfold resolve
  split
  · split
    · assumption
    · exact h.isKnown_common
  · exact h.isKnown_common

end Category

/-! ## Links of known categories -/

namespace Shelf
variable {links : Shelf} {categories : List Category}

/-- Every link belongs to one of the categories. -/
def KnownIn (categories : List Category) (links : Shelf) : Prop :=
  ∀ l ∈ links, Category.isKnown categories l.categoryId

theorem rankFree_isKnown (bound : Nat) (categories : List Category) :
    RankFree bound fun l => Category.isKnown categories l.categoryId where
  order _ _ _ h := h
  pin _ _ _ _ h := h

theorem adoptOrphans_knownIn (h : Category.Headed categories) (links : Shelf) :
    KnownIn categories (adoptOrphans categories links) := by
  intro m hm
  obtain ⟨l, -, rfl⟩ := List.mem_map.mp hm
  unfold adopt
  split
  · assumption
  · exact h.isKnown_common

theorem KnownIn.adoptOrphans_eq (h : KnownIn categories links) : adoptOrphans categories links = links := by
  have hid : ∀ l ∈ links, adopt categories l = id l := fun l hl => if_pos (h l hl)
  unfold adoptOrphans
  rw [List.map_congr_left hid, List.map_id]

theorem KnownIn.sort_compactPins (h : KnownIn categories links) : KnownIn categories (sort (compactPins links)) :=
  RankFree.sort ((rankFree_isKnown links.length categories).compactPins (Nat.le_refl _) h)

end Shelf

/-! ## Collections -/

namespace Collection
variable {c next : Collection} {supply : Supply}

/-- A collection as it is to be: the common category first, no link without a
category, and the links arranged. -/
structure InOrder (c : Collection) : Prop where
  headed : Category.Headed c.categories
  known : Shelf.KnownIn c.categories c.links
  arranged : Shelf.Arranged c.links

/-- **Repairing brings any collection into order.** -/
theorem repair_inOrder (c : Collection) : InOrder c.repair.collection where
  headed := Category.withCommonFirst_headed _
  known := (Shelf.adoptOrphans_knownIn (Category.withCommonFirst_headed _) _).sort_compactPins
  arranged := Shelf.sort_compactPins_arranged _

/-- **Repairing leaves a collection in order as it is.** -/
theorem InOrder.repair_eq (h : InOrder c) : c.repair.collection = c := by
  have hne : c.categories.isEmpty = false := by
    obtain ⟨d, rest, heq, -⟩ := h.headed
    rw [heq]
    rfl
  unfold repair
  simp only [hne, Bool.false_eq_true, if_false, h.headed.withCommonFirst_eq, h.known.adoptOrphans_eq,
    h.arranged.sort_compactPins_eq]

theorem InOrder.withLinks (h : InOrder c) {links : Shelf} (hk : Shelf.KnownIn c.categories links)
    (ha : Shelf.Arranged links) : InOrder (c.withLinks links) :=
  ⟨h.headed, hk, ha⟩

/-! ### Edits -/

theorem edit_keepsPlace (categories : List Category) (u : Update) : Shelf.KeepsPlace (edit categories u) := by
  intro l m h
  obtain ⟨url, title, rfl⟩ := edit_eq_ok h
  exact ⟨rfl, rfl⟩

theorem edit_isKnown {categories : List Category} (hc : Category.Headed categories) {u : Update} {l m : Link}
    (hl : Category.isKnown categories l.categoryId) (h : edit categories u l = .ok m) :
    Category.isKnown categories m.categoryId := by
  obtain ⟨url, title, rfl⟩ := edit_eq_ok h
  dsimp only
  split
  · exact hc.isKnown_resolve _
  · exact hl

/-! ### Commands on links -/

theorem InOrder.add (h : InOrder c) {draft : Draft} {id : String} {now : Int} {l : Link}
    (hl : draft.toLink id now (Category.resolve c.categories draft.categoryId) = .ok l) :
    InOrder (c.withLinks (Shelf.insert c.links l)) := by
  obtain ⟨url, title, rfl⟩ := Draft.toLink_eq_ok hl
  refine h.withLinks (Shelf.RankFree.insert h.known ?_) (Shelf.insert_arranged h.arranged _)
  exact h.headed.isKnown_resolve _

theorem InOrder.update (h : InOrder c) {u : Update} {links : Shelf}
    (hu : Shelf.update c.links u (edit c.categories u) = .ok links) : InOrder (c.withLinks links) := by
  refine h.withLinks ?_ (Shelf.update_arranged h.arranged (edit_keepsPlace _ _) hu)
  exact (Shelf.rankFree_isKnown _ _).update (Nat.le_refl _) h.known
    (fun _ _ hl he => edit_isKnown h.headed hl he) hu

theorem InOrder.delete (h : InOrder c) {id : String} {links : Shelf}
    (hr : Shelf.remove? c.links id = some links) : InOrder (c.withLinks links) :=
  h.withLinks ((Shelf.rankFree_isKnown _ _).remove? (Nat.le_refl _) h.known hr)
    (Shelf.remove?_arranged h.arranged hr)

theorem InOrder.togglePin (h : InOrder c) {id : String} {links : Shelf}
    (ht : Shelf.togglePin? c.links id = some links) : InOrder (c.withLinks links) :=
  h.withLinks ((Shelf.rankFree_isKnown _ _).togglePin? (Nat.le_refl _) h.known ht)
    (Shelf.togglePin?_arranged ht)

theorem InOrder.reorder (h : InOrder c) (activeId overId : String) (scope : Scope) :
    InOrder (c.withLinks (Shelf.reorder c.links activeId overId scope)) :=
  h.withLinks ((Shelf.rankFree_isKnown _ _).reorder (Nat.le_refl _) h.known _ _ _)
    (Shelf.reorder_arranged h.arranged _ _ _)

/-! ### Commands on categories -/

theorem InOrder.addCategory (h : InOrder c) {category : Category} (hid : category.id ≠ Category.commonId) :
    InOrder { c with categories := c.categories ++ [category] } where
  headed := h.headed.append hid
  known l hl := Category.isKnown_append_left (h.known l hl) _
  arranged := h.arranged

theorem InOrder.updateCategory (h : InOrder c) {category : Category} {categories : List Category}
    (hm : Sequence.modifyFirst? (·.id == category.id) (fun _ => category) c.categories = some categories) :
    InOrder { c with categories } := by
  have hids := (Category.ids_modifyFirst? hm).symm
  refine ⟨h.headed.of_ids_eq hids, fun l hl => ?_, h.arranged⟩
  dsimp only
  rw [← Category.isKnown_of_ids_eq hids]
  exact h.known l hl

theorem InOrder.deleteCategory (h : InOrder c) (id : String) :
    InOrder ⟨c.links.map (moveOut id), Category.withCommonFirst (c.categories.filter (·.id != id))⟩ := by
  refine ⟨Category.withCommonFirst_headed _, ?_, ?_⟩
  · intro m hm
    obtain ⟨l, hl, rfl⟩ := List.mem_map.mp hm
    refine Category.isKnown_withCommonFirst.mpr ?_
    unfold moveOut
    by_cases hmoved : l.categoryId = id
    · rw [if_pos hmoved]
      exact Or.inl rfl
    · rw [if_neg hmoved]
      obtain ⟨d, hd, hid⟩ := Category.isKnown_iff.mp (h.known l hl)
      refine Or.inr (Category.isKnown_iff.mpr ⟨d, List.mem_filter.mpr ⟨hd, ?_⟩, hid⟩)
      simpa [hid] using hmoved
  · -- a link that moves keeps its place, which does not depend on the category
    have hplace : ∀ l, Shelf.pinState (moveOut id l) = Shelf.pinState l ∧
        (moveOut id l).orderKey = l.orderKey := by
      intro l
      unfold moveOut
      split <;> exact ⟨rfl, rfl⟩
    refine h.arranged.of_place_eq ?_ ?_
    · rw [List.map_map]
      exact List.map_congr_left fun l _ => (hplace l).1.symm
    · rw [List.map_map]
      exact List.map_congr_left fun l _ => (hplace l).2.symm

/-! ### Merging -/

theorem Admission.takeIn_headed {a : Admission} (h : Category.Headed a.categories) (category : Category) :
    Category.Headed (a.takeIn category).categories := by
  unfold Admission.takeIn
  split
  · exact h
  · rename_i hnew
    split
    · exact h
    · refine h.append ?_
      intro hid
      rw [hid] at hnew
      exact hnew h.isKnown_common

theorem Admission.takeInAll_headed (existing incoming : List Category) :
    Category.Headed (Admission.takeInAll existing incoming).categories := by
  unfold Admission.takeInAll
  have hstart : Category.Headed (Admission.mk (Category.withCommonFirst existing) [] 0).categories :=
    Category.withCommonFirst_headed existing
  generalize Admission.mk (Category.withCommonFirst existing) [] 0 = a at hstart
  induction incoming generalizing a with
  | nil => exact hstart
  | cons category incoming ih => exact ih _ (Admission.takeIn_headed hstart category)

/-- A merge leads into order from anywhere. -/
theorem merge_inOrder (fresh : Nat → String) (c : Collection) (links : List Link) (categories : List Category) :
    InOrder (c.merge fresh links categories).collection where
  headed := Admission.takeInAll_headed _ _
  known := (Shelf.adoptOrphans_knownIn (Admission.takeInAll_headed _ _) _).sort_compactPins
  arranged := Shelf.sort_compactPins_arranged _

/-! ### All commands -/

/-- **Every command leads from a collection in order to one in order.** -/
theorem InOrder.perform (h : InOrder c) (hid : ∀ k, supply.id k ≠ Category.commonId) {command : Command}
    {reply : Reply} (hp : c.perform supply command = .ok ⟨some next, reply⟩) : InOrder next := by
  cases perform_change hp with
  | addLink hl => exact h.add hl
  | updateLink hu => exact h.update hu
  | deleteLink hr => exact h.delete hr
  | togglePin ht => exact h.togglePin ht
  | reorderLinks activeId overId categoryId => exact h.reorder activeId overId _
  | reorderPinned activeId overId => exact h.reorder activeId overId _
  | addCategory icon _ => exact h.addCategory (hid 0)
  | updateCategory hm _ => exact h.updateCategory hm
  | deleteCategory _ _ => exact h.deleteCategory _
  | importData links categories => exact merge_inOrder _ _ _ _

end Collection

end Bookmarks
