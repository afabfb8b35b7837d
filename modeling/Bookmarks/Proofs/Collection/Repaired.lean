import Bookmarks.Proofs.Collection.Merged

/-! # What repairing changes

A stored collection may hold anything: the common category twice or not at all, links of
categories that are gone, pins without ranks or with any ranks.  Repairing looks for one fault
after the other, and each fault is mended without touching what the others are about: putting
the common category first decides which links have lost their category, moving these leaves
the pins alone, counting the pins leaves the categories alone, and sorting changes no link.

So **repairing changes nothing but the faults** (`repair_mends_only_faults`), it tells what it
changed, and it finds nothing to do in a collection that is in order (`InOrder.repair_eq_self`),
in particular in one that was repaired.
-/
namespace Bookmarks.Collection

variable {c : Collection}

/-! ## Categories -/

/-- The categories that are repaired: those that are given, or the first ones if none are. -/
def givenCategories (c : Collection) : List Category :=
  if c.categories = [] then Category.defaults else c.categories

theorem categories_repair (c : Collection) :
    c.repair.collection.categories = Category.withCommonFirst c.givenCategories := by
  unfold repair givenCategories
  simp only [List.isEmpty_iff]

theorem commonFixed_repair_iff (c : Collection) :
    c.repair.commonFixed = true ↔ c.repair.collection.categories ≠ c.givenCategories := by
  rw [categories_repair]
  unfold repair givenCategories
  simp only [List.isEmpty_iff, bne_iff_ne]

/-! ## Links -/

/-- A link as it is to be among some categories: in its own one, if that is there, or else in
the common one. -/
def settled (categories : List Category) (l : Link) : Link :=
  if ∃ p ∈ categories, p.id = l.categoryId then l else { l with categoryId := "common" }

theorem adopt_eq_settled (categories : List Category) : Shelf.adopt categories = settled categories := by
  funext l
  unfold Shelf.adopt settled
  by_cases hknown : Category.isKnown categories l.categoryId
  · rw [if_pos hknown, if_pos (Category.isKnown_iff.mp hknown)]
  · rw [if_neg hknown, if_neg (mt Category.isKnown_iff.mpr hknown)]
    rfl

/-- A link is moved exactly if its category is not there: the common one is. -/
theorem settled_ne_self_iff {categories : List Category} (h : Category.Headed categories) (l : Link) :
    settled categories l ≠ l ↔ ¬ Category.isKnown categories l.categoryId := by
  rw [← adopt_eq_settled, Shelf.adopt]
  by_cases hknown : Category.isKnown categories l.categoryId
  · rw [if_pos hknown]
    exact iff_of_false (fun hne => hne rfl) (fun hnot => hnot hknown)
  · rw [if_neg hknown]
    refine iff_of_true ?_ hknown
    intro heq
    have hcommon : Category.commonId = l.categoryId := congrArg (·.categoryId) heq
    exact hknown (hcommon ▸ h.isKnown_common)

theorem links_repair (c : Collection) : c.repair.collection.links =
    Shelf.sort (Shelf.compactPins (c.links.map (settled c.repair.collection.categories))) := by
  rw [← adopt_eq_settled]
  rfl

/-- **No link is lost or invented**, and none changes but for the rank of its pin, and its
category if that is not there. -/
theorem links_repair_perm (c : Collection) : (c.repair.collection.links.map Shelf.unranked).Perm
    ((c.links.map (settled c.repair.collection.categories)).map Shelf.unranked) := by
  rw [links_repair]
  refine ((Shelf.sort_perm _).map _).trans (List.Perm.of_eq ?_)
  exact Shelf.map_compactPins (fun _ _ => rfl) _

/-- **The pins stand by the ranks that they had.** -/
theorem pins_repair (c : Collection) : c.repair.collection.links.filter (·.pinned) =
    ((Shelf.pinsByRank c.links).map (settled c.repair.collection.categories)).mapIdx Shelf.withPinnedOrder := by
  have hsettled (l : Link) : (settled c.repair.collection.categories l).pinned = l.pinned ∧
      (settled c.repair.collection.categories l).pinnedOrder = l.pinnedOrder := by
    unfold settled
    split <;> exact ⟨rfl, rfl⟩
  rw [links_repair, Shelf.filter_pinned_sort_compactPins,
    Shelf.pinsByRank_map (fun l => (hsettled l).1) (fun l => (hsettled l).2)]

theorem orphansAdopted_repair (c : Collection) :
    c.repair.orphansAdopted = c.links.countP fun l => settled c.repair.collection.categories l ≠ l := by
  have hheaded : Category.Headed c.repair.collection.categories := (repair_inOrder c).headed
  show Shelf.orphanCount c.repair.collection.categories c.links = _
  unfold Shelf.orphanCount
  refine List.countP_congr ?_
  intro l _
  rw [decide_eq_true_iff, settled_ne_self_iff hheaded, Bool.not_eq_true', Bool.not_eq_true]

/-! ## Collections without faults -/

/-- **There is nothing to do in a collection that is in order**, and nothing is told to have
been done. -/
theorem InOrder.repair_eq_self (h : c.InOrder) : c.repair = ⟨c, false, 0⟩ := by
  have hcollection : c.repair.collection = c := h.repair_eq
  have hgiven : c.givenCategories = c.categories := by
    obtain ⟨first, rest, hcons, -⟩ := h.headed
    exact if_neg (by rw [hcons]; exact List.cons_ne_nil first rest)
  have hfixed : c.repair.commonFixed = false := by
    rw [← Bool.not_eq_true, commonFixed_repair_iff, hcollection, hgiven]
    exact fun hne => hne rfl
  have horphans : c.repair.orphansAdopted = 0 := by
    rw [orphansAdopted_repair, hcollection, List.countP_eq_zero]
    intro l hl hmoved
    exact (settled_ne_self_iff h.headed l).mp (of_decide_eq_true hmoved) (h.known l hl)
  calc c.repair = ⟨c.repair.collection, c.repair.commonFixed, c.repair.orphansAdopted⟩ := rfl
    _ = ⟨c, false, 0⟩ := by rw [hcollection, hfixed, horphans]

/-- **Repairing mends the faults of a collection and changes nothing else.**  Whatever it holds,
it is in order afterwards.

The common category is put first and the others of its id are left out; the other categories
keep their order.  Where no categories are given the first ones are.  The links are those that
were there, and only those whose category is not there change theirs, to the common one.  The
pins have the ranks `0, 1, …, n - 1` in the order of the ranks that they had, where one without
a rank counts as one with the greatest and pins that count the same keep their order.

What is told is the number of links that were moved, and whether the categories changed.  A
collection in order is left as it is, so that repairing it again does nothing.

Pins without a rank come last exactly if none of them stands before a pin with the greatest
rank. -/
theorem repair_mends_only_faults (c : Collection) :
    let result := c.repair.collection
    result.InOrder ∧
    (∃ first, result.categories = first :: c.givenCategories.filter (·.id != "common") ∧ first.id = "common" ∧
      ((∃ p ∈ c.givenCategories, p.id = "common") → first ∈ c.givenCategories)) ∧
    (result.links.map Shelf.unranked).Perm ((c.links.map (settled result.categories)).map Shelf.unranked) ∧
    result.links.filter (·.pinned) =
      ((Shelf.pinsByRank c.links).map (settled result.categories)).mapIdx Shelf.withPinnedOrder ∧
    c.repair.orphansAdopted = c.links.countP (fun l => settled result.categories l ≠ l) ∧
    (c.repair.commonFixed = true ↔ result.categories ≠ c.givenCategories) ∧
    (c.InOrder → c.repair = ⟨c, false, 0⟩) ∧
    result.repair = ⟨result, false, 0⟩ ∧
    ((∀ l ∈ c.links, ∀ r ∈ l.pinnedOrder, r ≤ maxRank) →
      (((Shelf.pinsByRank c.links).Pairwise fun a b => a.pinnedOrder = none → b.pinnedOrder = none) ↔
        (c.links.filter (·.pinned)).Pairwise fun a b => a.pinnedOrder = none → b.pinnedOrder ≠ some maxRank)) := by
  intro result
  refine ⟨repair_inOrder c, ?_, links_repair_perm c, pins_repair c, orphansAdopted_repair c,
    commonFixed_repair_iff c, InOrder.repair_eq_self, (repair_inOrder c).repair_eq_self, Shelf.unranked_last_iff⟩
  rw [show result.categories = _ from categories_repair c]
  exact Category.withCommonFirst_eq_cons c.givenCategories

/-- A pin without a rank stays before a pin that stood behind it with the greatest rank. -/
theorem not_every_unranked_pin_repaired_to_last :
    ¬ ∀ c : Collection, (∀ l ∈ c.links, l.Storable) →
      ∃ ranked, ranked.Perm (c.links.filter fun l => l.pinned && l.pinnedOrder.isSome) ∧
        (c.repair.collection.links.filter (·.pinned)).map (·.title) =
          (ranked ++ c.links.filter fun l => l.pinned && l.pinnedOrder.isNone).map (·.title) := by
  intro h
  let pin (title : String) (rank : Option Int) : Link :=
    ⟨title, "https://a.example", title, none, "common", none, true, none, rank, 0⟩
  obtain ⟨ranked, hranked, heq⟩ := h ⟨[pin "A" none, pin "B" (some maxRank)], []⟩ (by decide)
  obtain rfl : ranked = [pin "B" (some maxRank)] := List.perm_singleton.mp hranked
  exact absurd heq (by decide)

end Bookmarks.Collection
