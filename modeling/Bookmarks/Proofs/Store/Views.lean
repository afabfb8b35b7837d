import Bookmarks.Proofs.Collection.Categories
import Bookmarks.Proofs.Shelf.Turned
import Bookmarks.Proofs.Store.Invariant
import Bookmarks.Proofs.Store.Reordering

/-! # Categories and what is shown for them

For the id of a category its own unpinned links are shown, and put into another order.  But one
id is that of no category by its meaning: `all` stands for every category at once, and nothing
keeps a category from elsewhere from having it.  **What is shown for an id are the unpinned
links of that category exactly if the id is another one**, or there are no other unpinned links
(`own_links_shown_iff`).

The id gets into a collection only from what is stored or imported, or if it is drawn
(`no_category_called_all_at_any_time`).
-/
namespace Bookmarks

namespace Shelf

variable {links : Shelf} {id : String}

/-- Of links that stand as they are shown, those outside the scope are left as they are,
whatever is to be moved. -/
theorem Shown.filter_outside_reorder (h : Shown links) (activeId overId : String) (scope : Scope) :
    (reorder links activeId overId scope).filter (fun l => !scope.contains l) =
      links.filter fun l => !scope.contains l := by
  by_cases hmoves : activeId ≠ overId ∧ Offers scope links activeId ∧ Offers scope links overId
  · obtain ⟨hne, hactive, hother⟩ := hmoves
    rw [Shelf.filter_outside_reorder hne hactive hother, (h.filter _).sort_eq]
  · rw [reorder_of_not_offers]
    rcases Decidable.not_and_iff_not_or_not.mp hmoves with heq | hmissing
    · exact Or.inl (Decidable.not_not.mp heq)
    · exact Or.inr (Classical.not_and_iff_not_or_not.mp hmissing)

/-- Every unpinned link is of the category, if the id is the one that stands for all. -/
def AllWithin (links : Shelf) (id : String) : Prop :=
  id = "all" → ∀ l ∈ links, l.pinned = false → l.categoryId = "all"

/-- A reordering neither pins a link nor moves it to another category. -/
theorem AllWithin.reorder (h : AllWithin links id) (activeId overId : String) (scope : Scope) :
    AllWithin (reorder links activeId overId scope) id := by
  intro hid m hm hpinned
  have hmem := (reorder_perm links activeId overId scope).mem_iff.mp (List.mem_map_of_mem hm)
  obtain ⟨l, hl, heq⟩ := List.mem_map.mp hmem
  have hsame : l.pinned = m.pinned ∧ l.categoryId = m.categoryId := by
    have hpinned := congrArg Link.pinned heq
    have hcategory := congrArg Link.categoryId heq
    cases scope <;> exact ⟨hpinned, hcategory⟩
  rw [← hsame.2]
  exact h hid l hl (hsame.1.trans hpinned)

theorem contains_ofCategory_eq (h : AllWithin links id) :
    ∀ l ∈ links, (Scope.ofCategory id).contains l = (Scope.category id).contains l := by
  intro l hl
  unfold Scope.ofCategory
  split
  · next hall =>
    subst hall
    cases hpinned : l.pinned with
    | true => simp [Scope.contains, hpinned]
    | false =>
      have hcategory : l.categoryId = Category.allId := h rfl l hl hpinned
      simp [Scope.contains, hpinned, hcategory]
  · rfl

/-- **The links shown for an id are the unpinned ones of that category, or there are others
and the id stands for all.** -/
theorem Shown.inCategory_eq_iff (h : Shown links) :
    inCategory links id = links.filter (Scope.category id).contains ↔ AllWithin links id := by
  rw [h.inCategory_eq]
  constructor
  · rintro heq rfl l hl hpinned
    have hshown : l ∈ links.filter (Scope.ofCategory "all").contains :=
      List.mem_filter.mpr ⟨hl, by simp [Scope.ofCategory, Category.allId, Scope.contains, hpinned]⟩
    rw [heq] at hshown
    simpa [Scope.contains, hpinned] using (List.mem_filter.mp hshown).2
  · intro hall
    exact List.filter_congr (contains_ofCategory_eq hall)

theorem Shown.filter_other_reorder (h : Shown links) (hall : AllWithin links id) (activeId overId : String) :
    (reorder links activeId overId (Scope.ofCategory id)).filter (fun l => !(Scope.category id).contains l) =
      links.filter fun l => !(Scope.category id).contains l := by
  have hnext := hall.reorder activeId overId (Scope.ofCategory id)
  have hcongr : ∀ ls : Shelf, AllWithin ls id → ls.filter (fun l => !(Scope.category id).contains l) =
      ls.filter fun l => !(Scope.ofCategory id).contains l := fun ls hls =>
    List.filter_congr fun l hl => by rw [contains_ofCategory_eq hls l hl]
  rw [hcongr _ hnext, hcongr _ hall, h.filter_outside_reorder]

end Shelf

/-! ## Where the id can come from -/

/-- A command that neither draws the id that stands for all for a category nor imports one with
it. -/
def Command.SparesAll (supply : Supply) : Command → Prop
  | .addCategory _ _ => supply.id 0 ≠ "all"
  | .importData _ categories => ∀ k ∈ categories, k.id ≠ "all"
  | _ => True

namespace Collection

/-- Only these commands can bring the id in, as an edit finds the category by its id. -/
theorem noneCalledAll_kept :
    Kept (fun c => ∀ k ∈ c.categories, k.id ≠ "all") (fun supply _ command => command.SparesAll supply) where
  seed := by decide
  repair hc k hk := by
    have hfirst : ∀ d ∈ Category.defaults, d.id ≠ "all" := by decide
    exact (mem_categories_repair hk).elim (hfirst k) (hc k)
  perform hc hspares hp k hk := by
    rcases mem_categories_perform hp hk with rfl | hold | hnew
    · decide
    · exact hc k hold
    · cases perform_change hp with
      | addCategory icon _ =>
        obtain rfl := List.mem_singleton.mp hnew
        exact hspares
      | updateCategory hm _ =>
        obtain rfl := List.mem_singleton.mp hnew
        obtain ⟨old, hold⟩ := Sequence.find?_of_modifyFirst? hm
        have hid : old.id = k.id := by simpa using List.find?_some hold
        rw [← hid]
        exact hc old (List.mem_of_find?_eq_some hold)
      | importData links categories => exact hspares k (Category.newAmong_subset hnew)
      | _ => cases hnew

end Collection

namespace Store

variable {s : Store}

/-- What is in memory after a reordering, also if it was not written. -/
theorem links_run_reorderLinks (supply : Supply) (storage : Storage) (activeId overId id : String) :
    (s.run supply storage (.reorderLinks activeId overId id)).store.links =
      Shelf.reorder s.links activeId overId (Scope.ofCategory id) := by
  have hreorders : Command.Reorders activeId overId (Scope.ofCategory id) (.reorderLinks activeId overId id) :=
    ⟨rfl, rfl, rfl⟩
  obtain ⟨hsame, hchanged⟩ := run_of_reorders (s := s) hreorders supply storage
  by_cases heq : Shelf.reorder s.links activeId overId (Scope.ofCategory id) = s.links
  · rw [hsame heq, heq]
  · rw [hchanged heq]
    rfl

namespace Session

/-- **Whether an id stands for its own category.**  The links shown for it are exactly the
unpinned links of that category, and putting them into another order leaves all other links as
they are and where they stand among each other, **exactly if the id is not `all`**, or no
unpinned link is of another category. -/
theorem own_links_shown_iff {s : Session} (h : s.Reachable) (id : String) :
    (s.store.view id = s.store.links.filter (fun l => !l.pinned && l.categoryId == id) ∧
      ∀ supply storage activeId overId,
        let next := (s.store.run supply storage (.reorderLinks activeId overId id)).store
        next.links.filter (fun l => !(!l.pinned && l.categoryId == id)) =
          s.store.links.filter fun l => !(!l.pinned && l.categoryId == id)) ↔
      (id = "all" → ∀ l ∈ s.store.links, l.pinned = false → l.categoryId = "all") := by
  have hshown : Shelf.Shown s.store.links := h.inOrder.arranged.shown
  constructor
  · rintro ⟨hview, -⟩
    exact hshown.inCategory_eq_iff.mp hview
  · intro hall
    refine ⟨hshown.inCategory_eq_iff.mpr hall, ?_⟩
    intro supply storage activeId overId next
    have hnext : next.links = Shelf.reorder s.store.links activeId overId (Scope.ofCategory id) :=
      links_run_reorderLinks supply storage activeId overId id
    rw [hnext]
    exact hshown.filter_other_reorder hall activeId overId

/-- In the first collection the links shown for the id of development are those of that
category. -/
theorem own_links_shown_for_development :
    let s := opened Storage.empty
    s.store.view "dev" = s.store.links.filter (fun l => !l.pinned && l.categoryId == "dev") ∧
      ∀ supply storage activeId overId,
        let next := (s.store.run supply storage (.reorderLinks activeId overId "dev")).store
        next.links.filter (fun l => !(!l.pinned && l.categoryId == "dev")) =
          s.store.links.filter fun l => !(!l.pinned && l.categoryId == "dev") :=
  (own_links_shown_iff (reachable_opened Storage.empty) "dev").mpr nofun

/-- A category with the id `all` is imported; it has no links, but links are shown for it. -/
theorem not_every_category_shows_own_links :
    ¬ ∀ s : Session, s.Reachable → ∀ c ∈ s.store.categories,
      (s.store.view c.id = s.store.links.filter fun l => !l.pinned && l.categoryId == c.id) ∧
      ∀ supply storage activeId overId,
        let next := (s.store.run supply storage (.reorderLinks activeId overId c.id)).store
        next.links.filter (·.categoryId != c.id) = s.store.links.filter (·.categoryId != c.id) := by
  intro h
  let supply : Supply := ⟨fun _ => "5b1e7c02-93d4-4f6a-8c1d-000000000000", 7, Supply.cut 16 [], Supply.cut 12 []⟩
  let events : List Event := [⟨.command supply (.importData [] [⟨"all", "All", ""⟩]), false, false⟩]
  have hids : ∀ e ∈ events, ∀ s ∈ e.request.supply?, s.SparesCommon := by
    intro e he s hs k
    obtain rfl := List.mem_singleton.mp he
    obtain rfl : supply = s := Option.some.inj hs
    show "5b1e7c02-93d4-4f6a-8c1d-000000000000" ≠ Category.commonId
    decide
  have hall := (h _ ⟨Storage.empty, events, hids, rfl⟩ ⟨"all", "All", ""⟩ (by decide)).1
  revert hall
  decide

/-- **No category has the id `all` at any time**, if none has that is stored at first, or that
somebody else puts there, none that is imported has it, and it is not drawn. -/
theorem no_category_called_all_at_any_time (storage : Storage) (events : List Event)
    (hstored : ∀ text ∈ storage.stored Storage.dataKey, ∀ c, Collection.codec.ofText text = .ok c →
      ∀ k ∈ c.categories, k.id ≠ "all")
    (hputs : ∀ e ∈ events, ∀ text, e.request = .put Storage.dataKey (some text) →
      ∀ c, Collection.codec.ofText text = .ok c → ∀ k ∈ c.categories, k.id ≠ "all")
    (hcommands : ∀ e ∈ events, ∀ supply command, e.request = .command supply command → command.SparesAll supply) :
    ∀ k ∈ ((opened storage).after events).store.categories, k.id ≠ "all" := by
  refine ((Has.opened Collection.noneCalledAll_kept hstored).after Collection.noneCalledAll_kept
    (accepts_of_commands hputs ?_)).memory
  intro n e supply command he
  exact hcommands e (List.mem_of_getElem? he) supply command

end Session

end Store

end Bookmarks
