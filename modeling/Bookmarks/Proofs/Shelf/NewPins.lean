import Bookmarks.Proofs.Collection.Storable
import Bookmarks.Proofs.Shelf.Ranking
import Bookmarks.Proofs.Shelf.Reordered

/-! # Where a new pin comes to stand

A new pin is given the number of pins as its rank.  That is the next rank if the pins are
counted (`Counted.lastRank`), but links that were read from elsewhere may have any ranks, or
none.

Pins are listed by their ranks to be counted and to be shown, and the two ways differ in what a
missing rank counts as (`pinsBy`): the greatest rank for the one, zero for the other.  In either
way **a new pin is listed last exactly if no pin has a greater rank, and none behind it an equal
one** (`getLast?_pinsBy_middle`), and then the others are listed as before.  A link that is
pinned is counted with the other pins, so a pin without a rank comes behind it; a link that
comes in pinned is not, so a pin without a rank stays before it.
-/
namespace Bookmarks

namespace Sequence

variable {α : Type} {fits : α → Bool} {x : α} {xs : List α}

theorem modifyFirst?_append (change : α → α) (h : ∀ y ∈ xs, ¬ fits y) (hx : fits x) (ys : List α) :
    modifyFirst? fits change (xs ++ x :: ys) = some (xs ++ change x :: ys) := by
  induction xs with
  | nil => exact if_pos hx
  | cons y xs ih =>
    obtain ⟨hy, hxs⟩ := List.forall_mem_cons.mp h
    rw [List.cons_append, modifyFirst?, if_neg hy, ih hxs]
    rfl

end Sequence

namespace Shelf

variable {links before after next : Shelf} {l x : Link} {missing : Int} {n : Nat}

/-! ## Listing pins -/

/-- The pins by their ranks, where a missing rank counts as the one that is given. -/
def pinsBy (missing : Int) (links : Shelf) : Shelf :=
  Sequence.sortBy (fun a b => decide (a.pinnedOrder.getD missing ≤ b.pinnedOrder.getD missing))
    (links.filter (·.pinned))

theorem isPreorder_pinsBy (missing : Int) : Sequence.IsPreorder
    fun a b : Link => decide (a.pinnedOrder.getD missing ≤ b.pinnedOrder.getD missing) :=
  Sequence.isPreorder_key fun l : Link => l.pinnedOrder.getD missing

/-- To be counted, a pin without a rank is listed as if it had the greatest. -/
theorem pinsByRank_eq_pinsBy (links : Shelf) : pinsByRank links = pinsBy maxRank links := rfl

/-- To be shown, a pin without a rank is listed as if it had the rank zero. -/
theorem pins_eq_pinsBy (links : Shelf) : pins links = pinsBy 0 links := by
  refine Sequence.sortBy_congr (List.pairwise_of_forall_mem_list fun a ha b hb => ?_)
  have hap : a.pinned = true := (List.mem_filter.mp ha).2
  have hbp : b.pinned = true := (List.mem_filter.mp hb).2
  rw [Bool.eq_iff_iff, Link.le_iff, decide_eq_true_iff]
  simp [Link.shownRank, hap, hbp]

theorem PinsRanked.pinsBy_eq (h : PinsRanked links) (missing : Int) : pinsBy missing links = pins links := by
  rw [pins_eq_pinsBy]
  refine Sequence.sortBy_congr (List.pairwise_of_forall_mem_list fun a ha b hb => ?_)
  obtain ⟨ha, hap⟩ := List.mem_filter.mp ha
  obtain ⟨hb, hbp⟩ := List.mem_filter.mp hb
  obtain ⟨r, hr⟩ := Option.isSome_iff_exists.mp (h a ha hap)
  obtain ⟨s, hs⟩ := Option.isSome_iff_exists.mp (h b hb hbp)
  rw [hr, hs]
  rfl

theorem filter_pinned_middle (hx : x.pinned = true) (before after : Shelf) :
    (before ++ x :: after).filter (·.pinned) = before.filter (·.pinned) ++ x :: after.filter (·.pinned) := by
  rw [List.filter_append, List.filter_cons_of_pos hx]

/-! ## The last rank -/

/-- A pin with this rank between these links has none behind it: no pin has a greater rank, and
none that stands behind it in the list has an equal one, where a missing rank counts as the one
that is given. -/
structure LastRank (missing : Int) (n : Nat) (before after : Shelf) : Prop where
  before : ∀ p ∈ before, p.pinned → p.pinnedOrder.getD missing ≤ n
  after : ∀ p ∈ after, p.pinned → p.pinnedOrder.getD missing < n

/-- In a counted shelf the number of pins is the next rank, wherever it is given. -/
theorem Counted.lastRank (h : Counted links) (missing : Int) (hbefore : before ⊆ links) (hafter : after ⊆ links) :
    LastRank missing (pinnedCount links) before after := by
  have hlt : ∀ p ∈ links, p.pinned → p.pinnedOrder.getD missing < pinnedCount links := by
    intro p hp hpin
    obtain ⟨k, hk, hrank⟩ := h.rank_lt hp hpin
    rw [hrank, Option.getD_some]
    omega
  exact ⟨fun p hp hpin => Int.le_of_lt (hlt p (hbefore hp) hpin), fun p hp hpin => hlt p (hafter hp) hpin⟩

/-- Where a missing rank counts as the greatest, none is missing. -/
theorem LastRank.pinsRanked (h : LastRank maxRank n before after) (hn : (n : Int) < maxRank) :
    PinsRanked (before ++ after) := by
  intro p hp hpin
  by_contra hnone
  have hgreatest : p.pinnedOrder.getD maxRank = maxRank := by
    rw [Option.not_isSome_iff_eq_none.mp hnone]
    rfl
  rcases List.mem_append.mp hp with hp | hp
  · have hle := h.before p hp hpin
    omega
  · have hlt := h.after p hp hpin
    omega

/-- The last rank, read off the order in which pins are listed. -/
theorem lastRank_iff_listed (hrank : x.pinnedOrder = some (n : Int)) : LastRank missing n before after ↔
    (∀ p ∈ before.filter (·.pinned), decide (p.pinnedOrder.getD missing ≤ x.pinnedOrder.getD missing) = true) ∧
    ∀ p ∈ after.filter (·.pinned), ¬ decide (x.pinnedOrder.getD missing ≤ p.pinnedOrder.getD missing) = true := by
  simp only [hrank, Option.getD_some, decide_eq_true_iff, Int.not_le, List.mem_filter, and_imp]
  exact ⟨fun h => ⟨h.before, h.after⟩, fun h => ⟨h.1, h.2⟩⟩

/-- **A pin with the last rank is listed last**, and the others as before. -/
theorem pinsBy_middle (hx : x.pinned = true) (hrank : x.pinnedOrder = some (n : Int))
    (h : LastRank missing n before after) :
    pinsBy missing (before ++ x :: after) = pinsBy missing (before ++ after) ++ [x] := by
  obtain ⟨hbefore, hafter⟩ := (lastRank_iff_listed hrank).mp h
  unfold pinsBy
  rw [filter_pinned_middle hx, List.filter_append]
  exact Sequence.sortBy_middle hbefore hafter

/-- **No other pin is listed last.** -/
theorem getLast?_pinsBy_middle (hx : x.pinned = true) (hrank : x.pinnedOrder = some (n : Int)) (hnot : x ∉ after) :
    (pinsBy missing (before ++ x :: after)).getLast? = some x ↔ LastRank missing n before after := by
  have hnot' : x ∉ after.filter (·.pinned) := fun hmem => hnot (List.mem_filter.mp hmem).1
  unfold pinsBy
  rw [filter_pinned_middle hx, Sequence.getLast?_sortBy_middle (isPreorder_pinsBy missing) hnot',
    ← lastRank_iff_listed hrank]

/-- The other pins are listed as before in any case. -/
theorem filter_pinsBy_middle (hx : x.pinned = true) (hids : ∀ m ∈ before ++ after, m.id ≠ x.id) :
    (pinsBy missing (before ++ x :: after)).filter (·.id != x.id) = pinsBy missing (before ++ after) := by
  have hothers : ∀ links ⊆ before ++ after, (links.filter (·.pinned)).filter (·.id != x.id) = links.filter (·.pinned) := by
    intro links hlinks
    refine List.filter_eq_self.mpr fun m hm => bne_iff_ne.mpr ?_
    exact hids m (hlinks (List.mem_filter.mp hm).1)
  unfold pinsBy
  rw [Sequence.filter_sortBy (isPreorder_pinsBy missing), filter_pinned_middle hx,
    List.filter_append, List.filter_cons_of_neg (by simp), hothers before (List.subset_append_left _ _),
    hothers after (List.subset_append_right _ _), List.filter_append]

/-- A link that is the only one of its id is told by it. -/
theorem getLast?_of_id {xs : Shelf} (hids : ∀ m ∈ xs, m.id = x.id → m = x)
    (h : xs.getLast?.map (·.id) = some x.id) : xs.getLast? = some x := by
  obtain ⟨m, hm, hid⟩ := Option.map_eq_some_iff.mp h
  rw [hm, hids m (List.mem_of_getLast? hm) hid]

/-! ## Pinning a link -/

/-- A link pinned with a rank. -/
def pinnedWith (n : Nat) (l : Link) : Link :=
  { l with pinned := true, pinnedOrder := some (n : Int) }

theorem flipPin_of_unpinned (hp : l.pinned = false) (n : Nat) : flipPin n l = pinnedWith n l := by
  unfold flipPin
  rw [hp]
  rfl

theorem pins_of_cons_unpinned (hp : l.pinned = false) (before after : Shelf) :
    pins (before ++ l :: after) = pins (before ++ after) := by
  unfold pins
  rw [List.filter_append, List.filter_append, List.filter_cons_of_neg (by simp [hp])]

theorem pinnedCount_lt_maxRank (hp : l.pinned = false) (hlen : (before ++ l :: after).length ≤ rankCount) :
    (pinnedCount (before ++ l :: after) : Int) < maxRank := by
  have hcount : pinnedCount (before ++ l :: after) = pinnedCount before + pinnedCount after := by
    rw [pinnedCount, List.countP_append, List.countP_cons_of_neg (by simp [hp])]
    rfl
  have hbefore := pinnedCount_le_length before
  have hafter := pinnedCount_le_length after
  rw [List.length_append, List.length_cons] at hlen
  have hmax : ((pinnedCount before + pinnedCount after + 1 : Nat) : Int) ≤ maxRank := natCast_le_maxRank.mpr (by omega)
  rw [hcount]
  omega

section Pinning
variable (hfirst : ∀ m ∈ before, m.id ≠ l.id) (hp : l.pinned = false)
  (h : togglePin? (before ++ l :: after) l.id = some next)
include hfirst hp h

/-- **The pins after a link was pinned**: it has the number of pins as its rank, and all are
counted by their ranks. -/
theorem pins_togglePin? : pins next =
    (pinsBy maxRank (before ++ pinnedWith (pinnedCount (before ++ l :: after)) l :: after)).mapIdx withPinnedOrder := by
  have hbefore : ∀ m ∈ before, ¬ (m.id == l.id) := by
    intro m hm
    simpa using hfirst m hm
  have hself : l.id == l.id := beq_self_eq_true l.id
  rw [togglePin?, Sequence.modifyFirst?_append _ hbefore hself, flipPin_of_unpinned hp] at h
  cases h
  rw [← pinsByRank_eq_pinsBy, ← filter_pinned_sort_compactPins, pins]
  exact ((sort_shown _).filter _).sort_eq

/-- A link that was pinned with the last rank is shown last, and the others as before. -/
theorem pins_togglePin?_of_lastRank (hlen : (before ++ l :: after).length ≤ rankCount)
    (hlast : LastRank maxRank (pinnedCount (before ++ l :: after)) before after) :
    (pins next).map unranked = (pins (before ++ l :: after) ++ [{ l with pinned := true }]).map unranked := by
  have hranked : PinsRanked (before ++ after) := hlast.pinsRanked (pinnedCount_lt_maxRank hp hlen)
  rw [pins_togglePin? hfirst hp h, map_unranked_mapIdx unranked_withPinnedOrder, pinsBy_middle rfl rfl hlast,
    hranked.pinsBy_eq, pins_of_cons_unpinned hp, List.map_append, List.map_append]
  rfl

/-- A link that was pinned and is shown last has the last rank. -/
theorem lastRank_of_togglePin? (hids : ∀ m ∈ after, m.id ≠ l.id)
    (hlast : (pins next).getLast?.map (·.id) = some l.id) :
    LastRank maxRank (pinnedCount (before ++ l :: after)) before after := by
  generalize hn : pinnedCount (before ++ l :: after) = n
  rw [pins_togglePin? hfirst hp h, hn, List.getLast?_mapIdx, Option.map_map] at hlast
  have hafter : pinnedWith n l ∉ after := fun hmem => hids _ hmem rfl
  have hrank : (pinnedWith n l).pinnedOrder = some (n : Int) := rfl
  refine (getLast?_pinsBy_middle rfl hrank hafter).mp (getLast?_of_id (fun m hm hid => ?_) hlast)
  have hm := (List.mem_filter.mp (Sequence.mem_sortBy.mp hm)).1
  rcases List.mem_append.mp hm with hm | hm
  · exact absurd hid (hfirst m hm)
  · rcases List.mem_cons.mp hm with rfl | hm
    · rfl
    · exact absurd hid (hids m hm)

end Pinning

/-! ## Adding a pin -/

section Adding
variable (hp : l.pinned = true)
include hp

theorem pinnedOrder_inserted : (inserted links l).pinnedOrder = some (pinnedCount links : Int) :=
  if_pos hp

theorem pins_insert : pins (insert links l) =
    pinsBy 0 (links.takeWhile (·.pinned) ++ inserted links l :: links.dropWhile (·.pinned)) := by
  rw [insert_of_pinned links hp, pins_eq_pinsBy]

/-- A link that was added with the last rank is shown last, and the others as before. -/
theorem pins_insert_of_lastRank
    (hlast : LastRank 0 (pinnedCount links) (links.takeWhile (·.pinned)) (links.dropWhile (·.pinned))) :
    pins (insert links l) = pins links ++ [inserted links l] := by
  have hpin : (inserted links l).pinned = true := hp
  rw [pins_insert hp, pinsBy_middle hpin (pinnedOrder_inserted hp) hlast, List.takeWhile_append_dropWhile,
    pins_eq_pinsBy]

variable (hids : ∀ m ∈ links, m.id ≠ l.id)
include hids

/-- Adding a pin keeps the order of the others. -/
theorem filter_pins_insert : (pins (insert links l)).filter (·.id != l.id) = pins links := by
  have hpin : (inserted links l).pinned = true := hp
  have hothers : ∀ m ∈ links.takeWhile (·.pinned) ++ links.dropWhile (·.pinned), m.id ≠ (inserted links l).id := by
    rwa [List.takeWhile_append_dropWhile]
  have hkept : (pins (insert links l)).filter (·.id != l.id) =
      pinsBy 0 (links.takeWhile (·.pinned) ++ links.dropWhile (·.pinned)) := by
    rw [pins_insert hp]
    exact filter_pinsBy_middle hpin hothers
  rw [hkept, List.takeWhile_append_dropWhile, pins_eq_pinsBy]

/-- A link that was added and is shown last has the last rank. -/
theorem lastRank_of_insert (hlast : (pins (insert links l)).getLast?.map (·.id) = some l.id) :
    LastRank 0 (pinnedCount links) (links.takeWhile (·.pinned)) (links.dropWhile (·.pinned)) := by
  have hpin : (inserted links l).pinned = true := hp
  have hrest : inserted links l ∉ links.dropWhile (·.pinned) := fun hmem =>
    hids _ ((List.dropWhile_sublist _).subset hmem) rfl
  refine (getLast?_pinsBy_middle hpin (pinnedOrder_inserted hp) hrest).mp ?_
  rw [← pins_insert hp]
  refine getLast?_of_id (fun m hm hid => ?_) hlast
  have hm := (insert_perm links l).mem_iff.mp (List.mem_filter.mp (Sequence.mem_sortBy.mp hm)).1
  rcases List.mem_cons.mp hm with rfl | hm
  · rfl
  · exact absurd hid (hids m hm)

end Adding

end Shelf

end Bookmarks
