import Mathlib.Data.List.Pairwise
import Bookmarks.Proofs.Sequence.Moving
import Bookmarks.Proofs.Sequence.Stable
import Bookmarks.Proofs.Shelf.Again

/-! # A shelf in another order

Two rules order the links of a scope: they are listed by their ranks to be moved, and they
are compared as links to be shown.  The two agree on every scope of a shelf whose pins all
have a rank (`map_fst_shownIn`), and on the links of a scope that was just counted
(`le_withRank_iff`).

So what is moved is what is shown: **the links of the scope are shown afterwards as they were
shown before, less the one that is moved, which stands where the other one stood**
(`presented_reorder`), and they have the ranks `0, 1, …, n - 1` as they are shown.
-/
namespace Bookmarks.Shelf

variable {links : Shelf} {scope : Scope} {a b : Link} {id activeId overId : String}

/-- The links of a scope, as they are shown. -/
def presented (scope : Scope) (links : Shelf) : Shelf :=
  sort (links.filter scope.contains)

/-- Every pin has a rank. -/
def PinsRanked (links : Shelf) : Prop :=
  ∀ l ∈ links, l.pinned → l.pinnedOrder.isSome

theorem Counted.pinsRanked (h : Counted links) : PinsRanked links := by
  intro l hl hp
  obtain ⟨k, -, hk⟩ := h.rank_lt hl hp
  rw [hk]
  rfl

/-! ## Two ways to compare the links of a scope -/

theorem le_iff_rank_le (ha : scope.contains a) (hb : scope.contains b) (hra : a.pinned → a.pinnedOrder.isSome)
    (hrb : b.pinned → b.pinnedOrder.isSome) : a.le b ↔ scope.rank a ≤ scope.rank b := by
  rw [Link.le_iff]
  cases scope with
  | category c =>
    obtain ⟨hap, -⟩ : a.pinned = false ∧ a.categoryId = c := by simpa [Scope.contains] using ha
    obtain ⟨hbp, -⟩ : b.pinned = false ∧ b.categoryId = c := by simpa [Scope.contains] using hb
    simp [Link.shownRank, Scope.rank, hap, hbp]
  | allUnpinned =>
    have hap : a.pinned = false := by simpa [Scope.contains] using ha
    have hbp : b.pinned = false := by simpa [Scope.contains] using hb
    simp [Link.shownRank, Scope.rank, hap, hbp]
  | pinned =>
    obtain ⟨r, hr⟩ := Option.isSome_iff_exists.mp (hra ha)
    obtain ⟨s, hs⟩ := Option.isSome_iff_exists.mp (hrb hb)
    have hap : a.pinned = true := ha
    have hbp : b.pinned = true := hb
    simp [Link.shownRank, Scope.rank, pinRank, hap, hbp, hr, hs]

/-- Links that were just counted stand in the order of their numbers. -/
theorem le_withRank_iff (ha : scope.contains a) (hb : scope.contains b) (j k : Nat) :
    (scope.withRank j a).le (scope.withRank k b) ↔ j ≤ k := by
  have hranked : ∀ (k : Nat) (l : Link), scope.contains l →
      (scope.withRank k l).pinned → (scope.withRank k l).pinnedOrder.isSome := by
    intro k l hl hp
    cases scope with
    | pinned => rfl
    | category c =>
      have hp : l.pinned = true := hp
      simp [Scope.contains, hp] at hl
    | allUnpinned =>
      have hp : l.pinned = true := hp
      simp [Scope.contains, hp] at hl
  rw [le_iff_rank_le ((scope.contains_withRank j a).trans ha) ((scope.contains_withRank k b).trans hb)
    (hranked j a ha) (hranked k b hb), scope.rank_withRank, scope.rank_withRank]
  exact Int.ofNat_le

/-- **The links of a scope are listed as they are shown.** -/
theorem map_fst_shownIn (hr : PinsRanked links) : (shownIn scope links).map (·.1) = presented scope links := by
  unfold shownIn presented sort
  rw [Sequence.map_fst_ranked]
  refine Sequence.sortBy_congr (List.pairwise_of_forall_mem_list fun a ha b hb => ?_)
  obtain ⟨ha, hac⟩ := List.mem_filter.mp ha
  obtain ⟨hb, hbc⟩ := List.mem_filter.mp hb
  rw [Bool.eq_iff_iff, decide_eq_true_iff]
  exact (le_iff_rank_le hac hbc (hr a ha) (hr b hb)).symm

/-- What is shown of a scope that was counted in the order of a list. -/
theorem presented_renumber {ps : List (Link × Nat)} (hps : ps.Perm (links.zipIdx.filter fun p => scope.contains p.1)) :
    presented scope (sort (Sequence.renumber scope.withRank (ps.map (·.2)) links)) =
      (ps.map (·.1)).mapIdx scope.withRank := by
  have hsorted : presented scope (sort (Sequence.renumber scope.withRank (ps.map (·.2)) links)) =
      sort ((Sequence.renumber scope.withRank (ps.map (·.2)) links).filter scope.contains) :=
    ((sort_shown _).filter _).sort_eq.trans (Sequence.filter_sortBy Link.isPreorder_le _ _)
  rw [hsorted]
  exact Sequence.sortBy_filter_renumber Link.isPreorder_le scope.contains_withRank
    (fun j k _ _ ha hb => le_withRank_iff ha hb j k) hps

/-! ## Putting a shelf in another order -/

/-- Equal ids, and ids of which the scope does not have a link, leave the shelf as it is. -/
theorem reorder_of_not_offers
    (h : activeId = overId ∨ ¬ Offers scope links activeId ∨ ¬ Offers scope links overId) :
    reorder links activeId overId scope = links := by
  by_contra hne
  obtain ⟨hids, hactive, hother, -⟩ := reorder_of_ne hne
  rcases h with h | h | h
  · exact hids h
  · exact h hactive
  · exact h hother

/-- Where the scope has both links, it is counted anew in some order of its places. -/
theorem exists_places_reorder (hne : activeId ≠ overId) (hactive : Offers scope links activeId)
    (hother : Offers scope links overId) :
    ∃ places : List Nat, places.Perm (Sequence.indices scope.contains links) ∧
      reorder links activeId overId scope = sort (Sequence.renumber scope.withRank places links) := by
  obtain ⟨source, hs⟩ := hactive.exists_findIdx?
  obtain ⟨target, ht⟩ := hother.exists_findIdx?
  refine ⟨_, (Sequence.move_perm source target _).trans (shownIn_perm scope links), ?_⟩
  unfold reorder
  rw [if_neg hne]
  simp only [hs, ht]

/-- The links outside the scope are what they were, as they are shown. -/
theorem filter_outside_reorder (hne : activeId ≠ overId) (hactive : Offers scope links activeId)
    (hother : Offers scope links overId) :
    (reorder links activeId overId scope).filter (fun l => !scope.contains l) =
      sort (links.filter fun l => !scope.contains l) := by
  obtain ⟨places, hplaces, heq⟩ := exists_places_reorder hne hactive hother
  rw [heq, ← Sequence.filter_not_renumber scope.contains_withRank hplaces]
  exact Sequence.filter_sortBy Link.isPreorder_le _ _

/-- No link is lost or invented, and none changes but for its rank in the scope. -/
theorem reorder_perm (links : Shelf) (activeId overId : String) (scope : Scope) :
    ((reorder links activeId overId scope).map (scope.withRank 0)).Perm (links.map (scope.withRank 0)) := by
  rcases reorder_eq links activeId overId scope with heq | ⟨places, -, heq⟩
  · rw [heq]
  · have hkeep : ∀ k l, scope.withRank 0 (scope.withRank k l) = scope.withRank 0 l := by
      intro k l
      cases scope <;> rfl
    rw [heq, ← Sequence.map_renumber hkeep places links]
    exact (sort_perm _).map _

theorem reorder_shown (hne : activeId ≠ overId) (hactive : Offers scope links activeId)
    (hother : Offers scope links overId) : Shown (reorder links activeId overId scope) := by
  obtain ⟨places, -, heq⟩ := exists_places_reorder hne hactive hother
  rw [heq]
  exact sort_shown _

/-! ## The scope as it is shown -/

theorem mem_presented : a ∈ presented scope links ↔ a ∈ links ∧ scope.contains a :=
  Sequence.mem_sortBy.trans List.mem_filter

theorem nodup_presented (hids : (links.map (·.id)).Nodup) : ((presented scope links).map (·.id)).Nodup :=
  ((sort_perm _).map _).nodup_iff.mpr (hids.sublist (List.filter_sublist.map _))

/-- The place at which a link of the scope is listed. -/
theorem findIdx?_shownIn (hids : (links.map (·.id)).Nodup) (hr : PinsRanked links) (ha : a ∈ links)
    (hac : scope.contains a) :
    (shownIn scope links).findIdx? (·.1.id == a.id) = some ((presented scope links).idxOf a) := by
  have hmap : (shownIn scope links).findIdx? (·.1.id == a.id) = (presented scope links).findIdx? (·.id == a.id) := by
    rw [← map_fst_shownIn hr, List.findIdx?_map]
    rfl
  have hlt : (presented scope links).idxOf a < (presented scope links).length :=
    List.idxOf_lt_length_of_mem (mem_presented.mpr ⟨ha, hac⟩)
  rw [hmap, List.findIdx?_eq_some_iff_getElem]
  refine ⟨hlt, ?_, fun j hj => ?_⟩
  · rw [List.getElem_idxOf hlt]
    exact beq_self_eq_true a.id
  · -- an earlier link with this id would be this one
    intro heq
    have hnodup : ((presented scope links).map (·.id)).Nodup := nodup_presented hids
    have hpw := List.pairwise_iff_getElem.mp (List.pairwise_map.mp hnodup)
      j _ (Nat.lt_trans hj hlt) hlt hj
    rw [List.getElem_idxOf hlt] at hpw
    exact hpw (by simpa using heq)

/-- **The link is taken out and put back where the other one stood**, among the links of the
scope as they are shown, and the scope is counted anew. -/
theorem presented_reorder (hids : (links.map (·.id)).Nodup) (hr : PinsRanked links) {active other : Link}
    (ha : active ∈ links) (hac : scope.contains active) (ho : other ∈ links) (hoc : scope.contains other)
    (hne : active.id ≠ other.id) :
    presented scope (reorder links active.id other.id scope) =
      (((presented scope links).erase active).insertIdx ((presented scope links).idxOf other) active).mapIdx
        scope.withRank := by
  have hsource : (presented scope links)[(presented scope links).idxOf active]? = some active :=
    List.getElem?_idxOf (mem_presented.mpr ⟨ha, hac⟩)
  have htarget : (presented scope links).idxOf other < (presented scope links).length :=
    List.idxOf_lt_length_of_mem (mem_presented.mpr ⟨ho, hoc⟩)
  have herase : (presented scope links).erase active =
      (presented scope links).eraseIdx ((presented scope links).idxOf active) :=
    List.erase_eq_eraseIdx_of_idxOf rfl
  rw [herase, ← Sequence.move_eq hsource htarget, ← map_fst_shownIn hr, ← Sequence.map_move,
    ← presented_renumber]
  · unfold reorder
    rw [if_neg hne]
    simp only [findIdx?_shownIn hids hr ha hac, findIdx?_shownIn hids hr ho hoc]
    rw [Sequence.map_move, map_fst_shownIn hr]
  · exact (Sequence.move_perm _ _ _).trans (Sequence.ranked_perm _ _ _)

end Bookmarks.Shelf
