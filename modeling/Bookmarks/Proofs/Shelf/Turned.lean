import Bookmarks.Proofs.Shelf.NewPins

/-! # Pinning and unpinning one link

A link of an arranged shelf is pinned or unpinned in its place, the pins are counted again and
the shelf is sorted.  What comes of this is read off the two parts of a shelf, its pins and what
it shows for a category.

**Pinning puts the link behind the other pins** and takes it out of every category
(`pins_pinned`, `inCategory_pinned`).  Its rank is the next one, so counting changes nothing.
**Unpinning takes the link out of the pins**, which close up, and puts it into its category before
the first link with no smaller key (`pins_unpinned`, `inCategory_unpinned`): all pins stand before
all other links, so among those it comes first to be sorted in.

In either way the other links stand as they stood, with other ranks among the pins at most
(`map_unranked_toggled`).
-/
namespace Bookmarks.Shelf

open scoped List

variable {links next before after : Shelf} {x : Link} {id c : String}

/-- The links but those with an id. -/
def without (links : Shelf) (id : String) : Shelf :=
  links.filter (·.id != id)

/-- The link without a pin. -/
def released (l : Link) : Link :=
  { l with pinned := false, pinnedOrder := none }

theorem id_released (l : Link) : (released l).id = l.id := rfl

theorem id_pinnedWith (n : Nat) (l : Link) : (pinnedWith n l).id = l.id := rfl

theorem flipPin_of_pinned (hp : x.pinned = true) (n : Nat) : flipPin n x = released x := by
  unfold flipPin
  rw [hp]
  rfl

/-! ## One link among the others -/

/-- A link that is told by its id stands between links of other ids. -/
theorem exists_split (hids : (links.map (·.id)).Nodup) (hx : x ∈ links) :
    ∃ before after, links = before ++ x :: after ∧ without links x.id = before ++ after ∧
      ∀ m ∈ before, m.id ≠ x.id := by
  obtain ⟨before, after, rfl⟩ := List.append_of_mem hx
  rw [List.map_append, List.map_cons] at hids
  obtain ⟨-, hafter, hdisjoint⟩ := List.nodup_append.mp hids
  have hbefore : ∀ m ∈ before, m.id ≠ x.id := fun m hm =>
    hdisjoint _ (List.mem_map_of_mem hm) _ List.mem_cons_self
  have hbehind : ∀ m ∈ after, m.id ≠ x.id := fun m hm heq =>
    (List.nodup_cons.mp hafter).1 (heq ▸ List.mem_map_of_mem hm)
  refine ⟨before, after, rfl, ?_, hbefore⟩
  unfold without
  rw [List.filter_append, List.filter_cons_of_neg (by simp),
    List.filter_eq_self.mpr fun m hm => bne_iff_ne.mpr (hbefore m hm),
    List.filter_eq_self.mpr fun m hm => bne_iff_ne.mpr (hbehind m hm)]

theorem togglePin?_split (hbefore : ∀ m ∈ before, m.id ≠ x.id) (after : Shelf) :
    togglePin? (before ++ x :: after) x.id =
      some (sort (compactPins (before ++ flipPin (pinnedCount (before ++ x :: after)) x :: after))) := by
  have hnone : ∀ m ∈ before, ¬ (m.id == x.id) := by
    intro m hm
    simpa using hbefore m hm
  have hself : x.id == x.id := beq_self_eq_true x.id
  rw [togglePin?, Sequence.modifyFirst?_append _ hnone hself]
  rfl

theorem filter_without (links : Shelf) (id : String) (p : Link → Bool) :
    (without links id).filter p = without (links.filter p) id := by
  unfold without
  rw [List.filter_filter, List.filter_filter]
  exact List.filter_congr fun l _ => Bool.and_comm _ _

theorem Shown.pins_eq (h : Shown links) : pins links = links.filter (·.pinned) :=
  (h.filter _).sort_eq

theorem Shown.inCategory_eq (h : Shown links) (c : String) :
    inCategory links c = links.filter (Scope.ofCategory c).contains :=
  (h.filter _).sort_eq

theorem length_pins (links : Shelf) : (pins links).length = pinnedCount links := by
  rw [pins, (sort_perm _).length_eq, pinnedCount, List.countP_eq_length_filter]

/-- A shelf that was sorted shows what is picked out of it, sorted. -/
theorem inCategory_sort (links : Shelf) (c : String) :
    inCategory (sort links) c = sort (links.filter (Scope.ofCategory c).contains) :=
  ((sort_shown links).inCategory_eq c).trans (Sequence.filter_sortBy Link.isPreorder_le _ _)

theorem contains_ofCategory_of_pinned (hp : x.pinned = true) (c : String) :
    (Scope.ofCategory c).contains x = false := by
  refine Bool.eq_false_iff.mpr fun hin => ?_
  rw [(contains_ofCategory_iff.mp hin).1] at hp
  cases hp

theorem filter_unpinned_ofCategory (links : Shelf) (c : String) :
    (links.filter fun l => !l.pinned).filter (Scope.ofCategory c).contains =
      links.filter (Scope.ofCategory c).contains := by
  rw [List.filter_filter]
  refine List.filter_congr fun l _ => ?_
  cases hl : l.pinned with
  | true => rw [contains_ofCategory_of_pinned hl, Bool.false_and]
  | false => exact Bool.and_true _

/-- The pins of an arranged shelf have the ranks at which they are shown. -/
theorem Arranged.mapIdx_pins (h : Arranged links) : (pins links).mapIdx withPinnedOrder = pins links := by
  have hpins := filter_pinned_sort_compactPins links
  rw [h.sort_compactPins_eq, ← h.shown.pins_eq] at hpins
  rw [hpins]
  exact mapIdx_withPinnedOrder_congr (map_unranked_mapIdx unranked_withPinnedOrder _)

/-! ## Pinning -/

section Pinning
variable (h : Arranged links) (hids : (links.map (·.id)).Nodup) (hx : x ∈ links) (hp : x.pinned = false)
  (ht : togglePin? links x.id = some next)
include h hids hx hp ht

/-- The new pin has the next rank, so that the pins need not be counted again. -/
theorem exists_split_pinned : ∃ before after, links = before ++ x :: after ∧
    without links x.id = before ++ after ∧ next = sort (before ++ pinnedWith (pinnedCount links) x :: after) := by
  obtain ⟨before, after, hsplit, hwithout, hbefore⟩ := exists_split hids hx
  refine ⟨before, after, hsplit, hwithout, ?_⟩
  have hothers : Counted (before ++ after) :=
    (h.counted.of_perm (hsplit ▸ List.perm_middle)).of_cons_unpinned hp
  have hcount : pinnedCount (before ++ after) = pinnedCount links := by
    rw [hsplit, pinnedCount, pinnedCount, List.perm_middle.countP_eq, List.countP_cons_of_neg (by simp [hp])]
  have hcounted : Counted (before ++ pinnedWith (pinnedCount links) x :: after) := by
    refine (hothers.cons ?_).of_perm List.perm_middle.symm
    rw [hcount]
    rfl
  rw [hsplit, togglePin?_split hbefore, ← hsplit, flipPin_of_unpinned hp, hcounted.compactPins_eq] at ht
  exact (Option.some.inj ht).symm

/-- **A link that is pinned goes behind the other pins.** -/
theorem pins_pinned : pins next = pins links ++ [pinnedWith (pinnedCount links) x] := by
  obtain ⟨before, after, hsplit, -, rfl⟩ := exists_split_pinned h hids hx hp ht
  have hlast : LastRank 0 (pinnedCount links) before after :=
    h.counted.lastRank 0 (hsplit ▸ List.subset_append_left _ _)
      (hsplit ▸ fun m hm => List.mem_append_right _ (List.mem_cons_of_mem _ hm))
  have hshown : pins (sort (before ++ pinnedWith (pinnedCount links) x :: after)) =
      pins (before ++ pinnedWith (pinnedCount links) x :: after) :=
    (sort_shown _).pins_eq.trans (Sequence.filter_sortBy Link.isPreorder_le _ _)
  rw [hshown, pins_eq_pinsBy, pinsBy_middle rfl rfl hlast, ← pins_eq_pinsBy, ← pins_of_cons_unpinned hp, ← hsplit]

/-- **A link that is pinned is shown for no category.** -/
theorem inCategory_pinned (c : String) : inCategory next c = without (inCategory links c) x.id := by
  obtain ⟨before, after, hsplit, hwithout, rfl⟩ := exists_split_pinned h hids hx hp ht
  have hshown : Shown (without links x.id) := h.shown.filter _
  have hout : (Scope.ofCategory c).contains (pinnedWith (pinnedCount links) x) = false :=
    contains_ofCategory_of_pinned rfl c
  rw [inCategory_sort, List.filter_append, List.filter_cons_of_neg (by rw [hout]; exact Bool.false_ne_true),
    ← List.filter_append, ← hwithout, (hshown.filter _).sort_eq, filter_without, h.shown.inCategory_eq]

end Pinning

/-! ## Unpinning -/

/-- Counting the pins takes the ranks from all other links, and leaves these where they are. -/
theorem filter_unpinned_compactPins (links : Shelf) :
    (compactPins links).filter (fun l => !l.pinned) = (links.filter fun l => !l.pinned).map unranked := by
  have hcleared : ∀ xs : Shelf, (xs.map clearUnpinned).filter (fun l => !l.pinned) =
      (xs.filter fun l => !l.pinned).map clearUnpinned := by
    refine Sequence.filter_map_of_eq fun l => ?_
    unfold clearUnpinned
    split <;> rfl
  have hcounts : ∀ k l, (withPinnedOrder k l).pinned = l.pinned := fun _ _ => rfl
  unfold compactPins
  rw [hcleared, Sequence.filter_not_renumber hcounts (pinnedPlaces_perm links)]
  refine List.map_congr_left fun l hl => ?_
  have hl : l.pinned = false := by simpa using (List.mem_filter.mp hl).2
  unfold clearUnpinned
  rw [if_neg (Bool.eq_false_iff.mp hl)]
  rfl

/-- The link comes first among those that are not pinned, before they are sorted. -/
theorem filter_unpinned_released (h : Arranged (before ++ x :: after)) (hp : x.pinned = true) :
    (compactPins (before ++ released x :: after)).filter (fun l => !l.pinned) =
      released x :: (before ++ x :: after).filter fun l => !l.pinned := by
  have hpins : ∀ m ∈ before, m.pinned = true := by
    intro m hm
    have hle : m.le x := (List.pairwise_append.mp h.shown).2.2 m hm x List.mem_cons_self
    rcases (Link.le_iff m x).mp hle with ⟨hm, -⟩ | ⟨heq, -⟩
    · exact hm
    · exact heq.trans hp
  have hnone : before.filter (fun l => !l.pinned) = [] :=
    List.filter_eq_nil_iff.mpr fun m hm => by simp [hpins m hm]
  have hafter : (before ++ x :: after).filter (fun l => !l.pinned) = after.filter fun l => !l.pinned := by
    rw [List.filter_append, hnone, List.filter_cons_of_neg (by simp [hp]), List.nil_append]
  have hunranked : ∀ m ∈ (before ++ x :: after).filter (fun l => !l.pinned), unranked m = m := by
    intro m hm
    obtain ⟨hm, hmp⟩ := List.mem_filter.mp hm
    have horder : m.pinnedOrder = none := h.counted.unranked m hm (by simpa using hmp)
    unfold unranked
    rw [← horder]
  rw [filter_unpinned_compactPins, List.filter_append, hnone, List.nil_append, List.filter_cons_of_pos rfl,
    List.map_cons, ← hafter, List.map_congr_left hunranked, List.map_id']
  rfl

/-- Among links that are not pinned a link goes in before the first whose key is not smaller. -/
theorem insertSorted_inCategory (hp : x.pinned = false) (links : Shelf) (c : String) :
    Sequence.insertSorted Link.le x (inCategory links c) =
      (inCategory links c).takeWhile (fun m => decide (m.orderKey < x.orderKey)) ++
        x :: (inCategory links c).dropWhile fun m => decide (m.orderKey < x.orderKey) := by
  have hle : ∀ m ∈ inCategory links c, x.le m = decide (x.orderKey ≤ m.orderKey) := by
    intro m hm
    have hmp : m.pinned = false := (contains_ofCategory_iff.mp (List.mem_filter.mp (Sequence.mem_sortBy.mp hm)).2).1
    rw [Bool.eq_iff_iff, Link.le_iff, decide_eq_true_iff]
    simp [Link.shownRank, hp, hmp]
  have hkeys : Sequence.insertSorted Link.le x (inCategory links c) =
      Sequence.insertSorted (fun a b => decide (a.orderKey ≤ b.orderKey)) x (inCategory links c) :=
    Sequence.insertSorted_congr hle
  have hlt : (fun m : Link => !decide (x.orderKey ≤ m.orderKey)) = fun m => decide (m.orderKey < x.orderKey) := by
    funext m
    rw [← decide_not, decide_eq_decide, Int.not_le]
  rw [hkeys, Sequence.insertSorted_eq_takeWhile, hlt]

section Unpinning
variable (hids : (links.map (·.id)).Nodup) (hx : x ∈ links) (hp : x.pinned = true)
  (ht : togglePin? links x.id = some next)
include hids hx hp ht

theorem exists_split_unpinned : ∃ before after, links = before ++ x :: after ∧
    without links x.id = before ++ after ∧ next = sort (compactPins (before ++ released x :: after)) := by
  obtain ⟨before, after, hsplit, hwithout, hbefore⟩ := exists_split hids hx
  refine ⟨before, after, hsplit, hwithout, ?_⟩
  rw [hsplit, togglePin?_split hbefore, flipPin_of_pinned hp] at ht
  exact (Option.some.inj ht).symm

variable (h : Arranged links)
include h

/-- **The pins close up behind a link that is unpinned.** -/
theorem pins_unpinned : pins next = (without (pins links) x.id).mapIdx withPinnedOrder := by
  obtain ⟨before, after, hsplit, hwithout, rfl⟩ := exists_split_unpinned hids hx hp ht
  have hranked : PinsRanked (without links x.id) := fun l hl => h.counted.pinsRanked l (List.mem_filter.mp hl).1
  have hshown : Shown (without links x.id) := h.shown.filter _
  have hlisted : pinsByRank (before ++ released x :: after) = without (pins links) x.id := by
    have hfilter : (before ++ released x :: after).filter (·.pinned) = (without links x.id).filter (·.pinned) := by
      rw [hwithout, List.filter_append, List.filter_append]
      rfl
    rw [h.shown.pins_eq, ← filter_without, ← hshown.pins_eq, ← hranked.pinsBy_eq maxRank]
    unfold pinsByRank pinsBy
    rw [hfilter]
    rfl
  rw [(sort_shown _).pins_eq, filter_pinned_sort_compactPins, hlisted]

/-- **A link that is unpinned goes into its category before the first link whose key is not
smaller**, and every other category is shown as before. -/
theorem inCategory_unpinned (c : String) : inCategory next c =
    if c = Category.allId ∨ x.categoryId = c then
      (inCategory links c).takeWhile (fun m => decide (m.orderKey < x.orderKey)) ++
        released x :: (inCategory links c).dropWhile fun m => decide (m.orderKey < x.orderKey)
    else inCategory links c := by
  obtain ⟨before, after, rfl, -, rfl⟩ := exists_split_unpinned hids hx hp ht
  have hcontains : (Scope.ofCategory c).contains (released x) = true ↔ c = Category.allId ∨ x.categoryId = c :=
    contains_ofCategory_iff.trans (and_iff_right rfl)
  rw [inCategory_sort, ← filter_unpinned_ofCategory, filter_unpinned_released h hp, List.filter_cons]
  split
  · next hin =>
    rw [if_pos (hcontains.mp hin), filter_unpinned_ofCategory]
    exact insertSorted_inCategory rfl _ c
  · next hout =>
    rw [if_neg (mt hcontains.mpr hout), filter_unpinned_ofCategory]
    rfl

end Unpinning

/-! ## The other links -/

theorem without_nil (id : String) : without [] id = [] := rfl

theorem without_append (links next : Shelf) (id : String) :
    without (links ++ next) id = without links id ++ without next id :=
  List.filter_append _ _

theorem without_cons_self (hid : x.id = id) (links : Shelf) : without (x :: links) id = without links id :=
  List.filter_cons_of_neg (by simp [hid])

theorem without_without (links : Shelf) (id : String) : without (without links id) id = without links id :=
  List.filter_eq_self.mpr fun _ hm => (List.mem_filter.mp hm).2

theorem without_mapIdx_withPinnedOrder (links : Shelf) (id : String) :
    without ((without links id).mapIdx withPinnedOrder) id = (without links id).mapIdx withPinnedOrder := by
  refine List.filter_eq_self.mpr fun m hm => ?_
  obtain ⟨k, hk, rfl⟩ := List.mem_mapIdx.mp hm
  exact (List.mem_filter.mp (List.getElem_mem hk)).2

section Others
variable (h : Arranged links) (hids : (links.map (·.id)).Nodup) (hx : x ∈ links)
  (ht : togglePin? links x.id = some next)
include h hids hx ht

/-- **The other links stay as they are and stand as they stood**, but for their ranks among the
pins. -/
theorem map_unranked_toggled : (without next x.id).map unranked = (without links x.id).map unranked := by
  rw [(togglePin?_arranged ht).shown.eq_pins_append, h.shown.eq_pins_append, without_append, without_append,
    List.map_append, List.map_append]
  cases hp : x.pinned with
  | false =>
    rw [pins_pinned h hids hx hp ht, inCategory_pinned h hids hx hp ht, without_without, without_append,
      without_cons_self (id_pinnedWith _ x), without_nil, List.append_nil]
  | true =>
    rw [pins_unpinned hids hx hp ht h, inCategory_unpinned hids hx hp ht h, if_pos (Or.inl rfl),
      without_mapIdx_withPinnedOrder, map_unranked_mapIdx unranked_withPinnedOrder, without_append,
      without_cons_self (id_released x), ← without_append, List.takeWhile_append_dropWhile]

/-- **Unpinning a link that was pinned brings every link back.** -/
theorem togglePin?_twice {back : Shelf} (hp : x.pinned = false) (hback : togglePin? next x.id = some back) :
    back.Perm links := by
  obtain ⟨before, after, hsplit, hwithout, -⟩ := exists_split hids hx
  have harranged : Arranged next := togglePin?_arranged ht
  have hpin : pinnedWith (pinnedCount links) x ∈ next := by
    have hmem : pinnedWith (pinnedCount links) x ∈ pins next := by
      rw [pins_pinned h hids hx hp ht]
      exact List.mem_append_right _ List.mem_cons_self
    exact (List.mem_filter.mp (Sequence.mem_sortBy.mp hmem)).1
  have hnodup : (next.map (·.id)).Nodup := (ids_togglePin? ht).nodup_iff.mpr hids
  -- the link is not among the pins, and it had no rank
  have hpins : without (pins links) x.id = pins links := by
    rw [h.shown.pins_eq, ← filter_without, hwithout, hsplit, List.filter_append, List.filter_append,
      List.filter_cons_of_neg (by simp [hp])]
  have hreleased : released (pinnedWith (pinnedCount links) x) = x := by
    have hrank : x.pinnedOrder = none := h.counted.unranked x hx hp
    unfold released pinnedWith
    rw [← hp, ← hrank]
  have hpinsBack : pins back = pins links := by
    rw [pins_unpinned hnodup hpin rfl hback harranged, id_pinnedWith, pins_pinned h hids hx hp ht, without_append,
      without_cons_self (id_pinnedWith _ x), hpins, without_nil, List.append_nil, h.mapIdx_pins]
  have hviewBack : (inCategory back Category.allId).Perm (x :: without (inCategory links Category.allId) x.id) := by
    rw [inCategory_unpinned hnodup hpin rfl hback harranged, if_pos (Or.inl rfl), hreleased,
      inCategory_pinned h hids hx hp ht]
    refine List.perm_middle.trans ?_
    rw [List.takeWhile_append_dropWhile]
  calc back
    _ = pins links ++ inCategory back Category.allId := by
      rw [← hpinsBack]
      exact (togglePin?_arranged hback).shown.eq_pins_append
    _ ~ pins links ++ x :: without (inCategory links Category.allId) x.id := hviewBack.append_left _
    _ ~ x :: (pins links ++ without (inCategory links Category.allId) x.id) := List.perm_middle
    _ = x :: without links x.id := by
      rw [← hpins, ← without_append, ← h.shown.eq_pins_append]
    _ ~ links := by
      rw [hwithout, hsplit]
      exact List.perm_middle.symm

end Others

end Bookmarks.Shelf
