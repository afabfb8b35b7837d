import Bookmarks.Proofs.Sequence.Stable
import Bookmarks.Proofs.Shelf.Pins

/-! # Pins by their ranks

Counting the pins of a shelf keeps the order of their ranks: **the pins are shown afterwards
as they were ranked before** (`filter_pinned_sort_compactPins`), each with the rank of its
place.  Whatever else becomes of the links on the way, only the list of the pins by their
ranks matters, and this list is easily followed through counting, mapping and appending.

A pin without a rank counts as if it had the greatest rank.  So **the pins without a rank come
last exactly if none of them stands before a pin that does have the greatest rank**
(`unranked_last_iff`).
-/
namespace Bookmarks.Shelf

variable {links links' : Shelf}

/-- The pins by their ranks; one without a rank counts as one with the greatest, and pins that
count the same keep their order. -/
def pinsByRank (links : Shelf) : Shelf :=
  Sequence.sortBy (fun a b => decide (pinRank a ≤ pinRank b)) (links.filter (·.pinned))

theorem isPreorder_pinRank : Sequence.IsPreorder fun a b : Link => decide (pinRank a ≤ pinRank b) :=
  Sequence.isPreorder_key pinRank

/-! ## Counting -/

/-- Giving the pins new ranks lists them as before. -/
theorem pinsByRank_renumber (assign : Nat → Link → Link) (hpinned : ∀ k l, (assign k l).pinned = l.pinned)
    (hrank : ∀ j k a b, pinRank (assign j a) ≤ pinRank (assign k b) ↔ j ≤ k) (links : Shelf) :
    pinsByRank (Sequence.renumber assign (pinnedPlaces links) links) = (pinsByRank links).mapIdx assign := by
  have hlisted : (Sequence.ranked (·.pinned) pinRank links).map (·.1) = pinsByRank links :=
    Sequence.map_fst_ranked _ _ _
  rw [← hlisted]
  refine Sequence.sortBy_filter_renumber isPreorder_pinRank hpinned (fun j k a b _ _ => ?_) (Sequence.ranked_perm _ _ _)
  rw [decide_eq_true_iff]
  exact hrank j k a b

theorem filter_pinned_compactPins (links : Shelf) : (compactPins links).filter (·.pinned) =
    (Sequence.renumber withPinnedOrder (pinnedPlaces links) links).filter (·.pinned) := by
  have hpinned : ∀ l, (clearUnpinned l).pinned = l.pinned := by
    intro l
    unfold clearUnpinned
    split <;> rfl
  unfold compactPins
  rw [Sequence.filter_map_of_eq hpinned]
  refine (List.map_congr_left fun l hl => ?_).trans (List.map_id _)
  exact if_pos (List.mem_filter.mp hl).2

theorem pinsByRank_compactPins (links : Shelf) :
    pinsByRank (compactPins links) = (pinsByRank links).mapIdx withPinnedOrder := by
  rw [← pinsByRank_renumber withPinnedOrder (fun _ _ => rfl) (fun _ _ _ _ => Int.ofNat_le) links]
  unfold pinsByRank
  rw [filter_pinned_compactPins]

/-- **Arranging a shelf shows its pins by their ranks.** -/
theorem filter_pinned_sort_compactPins (links : Shelf) :
    (sort (compactPins links)).filter (·.pinned) = (pinsByRank links).mapIdx withPinnedOrder := by
  have hlisted : (Sequence.ranked (·.pinned) pinRank links).map (·.1) = pinsByRank links :=
    Sequence.map_fst_ranked _ _ _
  have hle : ∀ j k a b, a.pinned → b.pinned → ((withPinnedOrder j a).le (withPinnedOrder k b) ↔ j ≤ k) := by
    intro j k a b ha hb
    rw [Link.le_iff]
    simp [Link.shownRank, withPinnedOrder, ha, hb]
  unfold sort
  rw [Sequence.filter_sortBy Link.isPreorder_le, filter_pinned_compactPins, ← hlisted]
  exact Sequence.sortBy_filter_renumber Link.isPreorder_le (fun _ _ => rfl) hle (Sequence.ranked_perm _ _ _)

/-! ## Other changes -/

theorem pinsByRank_map {f : Link → Link} (hpinned : ∀ l, (f l).pinned = l.pinned)
    (hrank : ∀ l, (f l).pinnedOrder = l.pinnedOrder) (links : Shelf) :
    pinsByRank (links.map f) = (pinsByRank links).map f := by
  have hsame : ∀ l, pinRank (f l) = pinRank l := fun l => congrArg (Option.getD · maxRank) (hrank l)
  unfold pinsByRank
  rw [Sequence.filter_map_of_eq hpinned, ← Sequence.map_sortBy f]
  simp only [hsame]

/-- Links whose pins rank behind those of others are listed behind them. -/
theorem pinsByRank_append (h : ∀ a ∈ links, ∀ b ∈ links', a.pinned → b.pinned → pinRank a ≤ pinRank b) :
    pinsByRank (links ++ links') = pinsByRank links ++ pinsByRank links' := by
  unfold pinsByRank
  rw [List.filter_append]
  refine Sequence.sortBy_append fun a ha b hb => ?_
  obtain ⟨ha, hap⟩ := List.mem_filter.mp ha
  obtain ⟨hb, hbp⟩ := List.mem_filter.mp hb
  exact decide_eq_true (h a ha b hb hap hbp)

/-! ## Links without their ranks -/

/-- A link without its rank among the pins. -/
def unranked (l : Link) : Link := { l with pinnedOrder := none }

/-- The ranks that pins had do not matter to their being counted. -/
theorem mapIdx_withPinnedOrder_congr (h : links.map unranked = links'.map unranked) :
    links.mapIdx withPinnedOrder = links'.mapIdx withPinnedOrder := by
  have hmap (xs : Shelf) : xs.mapIdx withPinnedOrder = (xs.map unranked).mapIdx withPinnedOrder := by
    refine List.ext_getElem? fun k => ?_
    rw [List.getElem?_mapIdx, List.getElem?_mapIdx, List.getElem?_map]
    cases xs[k]? <;> rfl
  rw [hmap links, h, ← hmap]

theorem unranked_withPinnedOrder (k : Nat) (l : Link) : unranked (withPinnedOrder k l) = unranked l := rfl

theorem map_unranked_mapIdx {assign : Nat → Link → Link} (h : ∀ k l, unranked (assign k l) = unranked l)
    (links : Shelf) : (links.mapIdx assign).map unranked = links.map unranked := by
  refine List.ext_getElem? fun k => ?_
  rw [List.getElem?_map, List.getElem?_mapIdx, List.getElem?_map]
  cases links[k]? with
  | none => rfl
  | some l => exact congrArg some (h k l)

/-! ## Pins without a rank -/

/-- **The pins without a rank come last exactly if none of them stands before a pin that has the
greatest rank.** -/
theorem unranked_last_iff (h : ∀ l ∈ links, ∀ r ∈ l.pinnedOrder, r ≤ maxRank) :
    ((pinsByRank links).Pairwise fun a b => a.pinnedOrder = none → b.pinnedOrder = none) ↔
      (links.filter (·.pinned)).Pairwise fun a b => a.pinnedOrder = none → b.pinnedOrder ≠ some maxRank := by
  have hunranked : ∀ {l : Link}, l.pinnedOrder = none → pinRank l = maxRank := by
    intro l hl
    rw [pinRank, hl]
    rfl
  constructor
  · intro hlast
    -- those that count as the greatest are listed as they stand
    have hties : (pinsByRank links).filter (fun l => pinRank l == maxRank) =
        (links.filter (·.pinned)).filter fun l => pinRank l == maxRank := by
      refine Sequence.filter_sortBy_of_ties isPreorder_pinRank fun a _ b _ ha hb => ?_
      rw [eq_of_beq ha, eq_of_beq hb]
      exact decide_eq_true (Int.le_refl _)
    have hfiltered := hlast.filter fun l => pinRank l == maxRank
    rw [hties] at hfiltered
    refine (List.pairwise_filter.mp hfiltered).imp fun {a b} hab ha hb => ?_
    have hbrank : pinRank b = maxRank := by rw [pinRank, hb]; rfl
    rw [hab (beq_iff_eq.mpr (hunranked ha)) (beq_iff_eq.mpr hbrank) ha] at hb
    cases hb
  · intro hstand
    have hbefore := Sequence.sortBy_pairwise_before isPreorder_pinRank hstand
    have hmem : ∀ l ∈ pinsByRank links, pinRank l ≤ maxRank := by
      intro l hl
      have hl := (List.mem_filter.mp (Sequence.mem_sortBy.mp hl)).1
      unfold pinRank
      cases hr : l.pinnedOrder with
      | none => exact Int.le_refl _
      | some r => exact h l hl r hr
    refine (List.Pairwise.and_mem.mp hbefore).imp fun {a b} hab ha => ?_
    obtain ⟨-, hb, hle, hstood⟩ := hab
    rw [decide_eq_true_iff, hunranked ha] at hle
    have hbrank : pinRank b = maxRank := Int.le_antisymm (hmem b hb) hle
    have hne := hstood (decide_eq_true (Int.le_of_eq (hbrank.trans (hunranked ha).symm))) ha
    cases hr : b.pinnedOrder with
    | none => rfl
    | some r =>
      rw [pinRank, hr] at hbrank
      exact absurd (hr.trans (congrArg some hbrank)) hne

end Bookmarks.Shelf
