import Bookmarks.Proofs.Collection.Codec
import Bookmarks.Proofs.Collection.InOrder

/-! # Collections that can be stored

A rank that a command gives out is a place in a list, or comes after the greatest
order so far without going beyond `maxRank`.  So **a collection that can be stored
stays one**, as long as what comes in from outside can be stored, and no list has
more links than there are ranks.
-/
namespace Bookmarks

theorem isRank_natCast {k : Nat} (h : (k : Int) ≤ maxRank) : IsRank (k : Int) :=
  ⟨by unfold minRank; omega, h⟩

instance (l : Link) : Decidable l.Storable :=
  inferInstanceAs (Decidable ((∀ n ∈ l.order, IsRank n) ∧ (∀ n ∈ l.pinnedOrder, IsRank n) ∧ IsRank l.createdAt))

/-- The number of ranks that a list can be counted with. -/
def rankCount : Nat := 2 ^ 63 - 1

theorem natCast_le_maxRank {k : Nat} : (k : Int) ≤ maxRank ↔ k ≤ rankCount := by
  unfold maxRank rankCount
  omega

namespace Shelf
variable {links next : Shelf} {l : Link}

theorem rankFree_storable : RankFree rankCount Link.Storable where
  order l k hk := by
    rintro ⟨-, hpinned, hcreated⟩
    refine ⟨?_, hpinned, hcreated⟩
    rintro _ ⟨⟩
    exact isRank_natCast (natCast_le_maxRank.mpr hk)
  pin l pinned r hr := by
    rintro ⟨horder, -, hcreated⟩
    refine ⟨horder, fun n hn => ?_, hcreated⟩
    obtain ⟨m, hm, rfl⟩ := hr n hn
    exact isRank_natCast (natCast_le_maxRank.mpr hm)

/-- The order of a new link is that of another one, or the next. -/
theorem isRank_freeOrder (h : ∀ l ∈ links, l.Storable) (categoryId : String) :
    IsRank (freeOrder links categoryId) := by
  unfold freeOrder
  split
  · next n hmax =>
    obtain ⟨l, hl, rfl⟩ := List.mem_map.mp (List.max?_mem hmax)
    have hn : IsRank (l.order.getD 0) := by
      cases horder : l.order with
      | none => decide
      | some n => exact (h l (List.mem_filter.mp hl).1).1 n horder
    obtain ⟨hmin, -⟩ := hn
    refine ⟨?_, Int.min_le_right _ _⟩
    unfold minRank maxRank at *
    omega
  · decide

theorem inserted_storable (h : ∀ l ∈ links, l.Storable) (hlen : links.length ≤ rankCount) (hl : IsRank l.createdAt) :
    (inserted links l).Storable := by
  refine ⟨?_, ?_, hl⟩
  · rintro _ ⟨⟩
    exact isRank_freeOrder h _
  · intro n hn
    unfold inserted at hn
    dsimp only at hn
    split at hn
    · obtain rfl := Option.some.inj hn
      exact isRank_natCast (natCast_le_maxRank.mpr (Nat.le_trans (pinnedCount_le_length links) hlen))
    · cases hn

/-! Repairing and merging both end with giving every link a category, counting the pins
and sorting. -/

@[simp] theorem length_adoptOrphans (categories : List Category) (links : Shelf) :
    (adoptOrphans categories links).length = links.length :=
  List.length_map _

theorem length_settled (categories : List Category) (links : Shelf) :
    (sort (compactPins (adoptOrphans categories links))).length = links.length := by
  rw [(sort_perm _).length_eq, length_compactPins, length_adoptOrphans]

theorem adoptOrphans_storable (h : ∀ l ∈ links, l.Storable) (categories : List Category) :
    ∀ l ∈ adoptOrphans categories links, l.Storable := by
  intro m hm
  obtain ⟨l, hl, rfl⟩ := List.mem_map.mp hm
  unfold adopt
  split <;> exact h l hl

theorem settled_storable (h : ∀ l ∈ links, l.Storable) (hlen : links.length ≤ rankCount)
    (categories : List Category) : ∀ l ∈ sort (compactPins (adoptOrphans categories links)), l.Storable := by
  refine RankFree.sort (rankFree_storable.compactPins ?_ (adoptOrphans_storable h categories))
  rwa [length_adoptOrphans]

end Shelf

namespace Collection
variable {c next : Collection}

theorem seed_storable : seed.Storable :=
  show ∀ l ∈ seed.links, l.Storable by decide

theorem length_links_repair (c : Collection) : c.repair.collection.links.length = c.links.length :=
  Shelf.length_settled c.repair.collection.categories c.links

theorem repair_storable (hc : c.Storable) (hlen : c.links.length ≤ rankCount) : c.repair.collection.Storable :=
  Shelf.settled_storable hc hlen c.repair.collection.categories

/-! ## Merging -/

theorem claimIds_storable {fresh : Nat → String} {used : Nat} {taken : List String} {links : List Link}
    (h : ∀ l ∈ links, l.Storable) : ∀ l ∈ (claimIds fresh used taken links).1, l.Storable := by
  induction links generalizing used taken with
  | nil => exact h
  | cons l links ih =>
    obtain ⟨hl, hlinks⟩ := List.forall_mem_cons.mp h
    unfold claimIds
    dsimp only
    split
    · exact List.forall_mem_cons.mpr ⟨hl, ih hlinks⟩
    · exact List.forall_mem_cons.mpr ⟨hl, ih hlinks⟩

theorem length_claimIds (fresh : Nat → String) (used : Nat) (taken : List String) (links : List Link) :
    (claimIds fresh used taken links).1.length = links.length := by
  induction links generalizing used taken with
  | nil => rfl
  | cons l links ih =>
    unfold claimIds
    dsimp only
    split <;> rw [List.length_cons, List.length_cons, ih]

theorem Admission.redirect_storable (a : Admission) {l : Link} (h : l.Storable) : (a.redirect l).Storable := by
  unfold Admission.redirect
  split <;> exact h

theorem rankPinsFrom_storable (offset : Nat) {links : List Link} (h : ∀ l ∈ links, l.Storable)
    (hlen : offset + links.length ≤ rankCount) : ∀ l ∈ rankPinsFrom offset links, l.Storable := by
  intro m hm
  obtain ⟨l, hl, rfl | ⟨k, hk, rfl⟩⟩ := Sequence.mem_renumber hm
  · exact h m hl
  · have hplaces := (Shelf.pinnedPlaces_perm links).length_eq
    have hcount := Shelf.pinnedCount_le_length links
    rw [Sequence.length_indices] at hplaces
    unfold Shelf.pinnedCount at hcount
    exact Shelf.rankFree_storable.pinnedOrder (by omega) (h l hl)

/-- The links that a merge adds, as they come before the repair. -/
def incoming (fresh : Nat → String) (c : Collection) (links : List Link) (categories : List Category) : List Link :=
  rankPinsFrom (Shelf.pinnedCount (Shelf.compactPins c.links))
    ((claimIds fresh 0 ((Shelf.compactPins c.links).map (·.id)) links).1.map
      (Admission.takeInAll c.categories categories).redirect)

theorem length_incoming (fresh : Nat → String) (c : Collection) (links : List Link) (categories : List Category) :
    (c.incoming fresh links categories).length = links.length := by
  rw [incoming, rankPinsFrom, Sequence.length_renumber, List.length_map, length_claimIds]

/-- New pins are ranked behind the old ones, so both together have to be countable. -/
theorem incoming_storable {fresh : Nat → String} {links : List Link} (hl : ∀ l ∈ links, l.Storable)
    {categories : List Category} (hlen : c.links.length + links.length ≤ rankCount) :
    ∀ l ∈ c.incoming fresh links categories, l.Storable := by
  have hcount := Shelf.pinnedCount_le_length (Shelf.compactPins c.links)
  rw [Shelf.length_compactPins] at hcount
  refine rankPinsFrom_storable _ ?_ ?_
  · intro m hm
    obtain ⟨l, hl', rfl⟩ := List.mem_map.mp hm
    exact Admission.redirect_storable _ (claimIds_storable hl l hl')
  · rw [List.length_map, length_claimIds]
    omega

theorem links_merge (fresh : Nat → String) (c : Collection) (links : List Link) (categories : List Category) :
    ∃ all, (c.merge fresh links categories).collection.links = Shelf.sort (Shelf.compactPins
      (Shelf.adoptOrphans all (Shelf.compactPins c.links ++ c.incoming fresh links categories))) :=
  ⟨_, rfl⟩

theorem length_links_merge (fresh : Nat → String) (c : Collection) (links : List Link) (categories : List Category) :
    (c.merge fresh links categories).collection.links.length = c.links.length + links.length := by
  obtain ⟨all, heq⟩ := links_merge fresh c links categories
  rw [heq, Shelf.length_settled, List.length_append, Shelf.length_compactPins, length_incoming]

theorem merge_storable (hc : c.Storable) {fresh : Nat → String} {links : List Link} (hl : ∀ l ∈ links, l.Storable)
    {categories : List Category} (hlen : c.links.length + links.length ≤ rankCount) :
    (c.merge fresh links categories).collection.Storable := by
  obtain ⟨all, heq⟩ := links_merge fresh c links categories
  have hexisting : ∀ l ∈ Shelf.compactPins c.links, l.Storable :=
    Shelf.rankFree_storable.compactPins (by omega) hc
  unfold Storable
  rw [heq]
  refine Shelf.settled_storable (List.forall_mem_append.mpr ⟨hexisting, incoming_storable hl hlen⟩) ?_ all
  rwa [List.length_append, Shelf.length_compactPins, length_incoming]

end Collection

/-! ## All commands -/

/-- The links that a command brings in from outside can be stored. -/
def Command.Storable : Command → Prop
  | .importData links _ => ∀ l ∈ links, l.Storable
  | _ => True

namespace Collection
variable {c next : Collection}

theorem edit_storable {categories : List Category} {u : Update} {l m : Link} (hl : l.Storable)
    (h : edit categories u l = .ok m) : m.Storable := by
  obtain ⟨url, title, rfl⟩ := edit_eq_ok h
  exact hl

theorem moveOut_storable (id : String) {l : Link} (h : l.Storable) : (moveOut id l).Storable := by
  unfold moveOut
  split <;> exact h

/-- **Every command leads from a collection that can be stored to one that can.** -/
theorem perform_storable (hc : c.Storable) {supply : Supply} (hnow : IsRank supply.now) {command : Command}
    (hcommand : command.Storable) {reply : Reply} (hp : c.perform supply command = .ok ⟨some next, reply⟩)
    (hlen : c.links.length ≤ rankCount) (hlen' : next.links.length ≤ rankCount) : next.Storable := by
  cases perform_change hp with
  | addLink hl =>
    obtain ⟨url, title, rfl⟩ := Draft.toLink_eq_ok hl
    exact Shelf.RankFree.insert hc (Shelf.inserted_storable hc hlen hnow)
  | updateLink hu => exact Shelf.rankFree_storable.update hlen hc (fun _ _ => edit_storable) hu
  | deleteLink hr => exact Shelf.rankFree_storable.remove? hlen hc hr
  | togglePin ht => exact Shelf.rankFree_storable.togglePin? hlen hc ht
  | reorderLinks activeId overId categoryId => exact Shelf.rankFree_storable.reorder hlen hc _ _ _
  | reorderPinned activeId overId => exact Shelf.rankFree_storable.reorder hlen hc _ _ _
  | addCategory icon _ => exact hc
  | updateCategory _ _ => exact hc
  | deleteCategory _ _ =>
    intro m hm
    obtain ⟨l, hl, rfl⟩ := List.mem_map.mp hm
    exact moveOut_storable _ (hc l hl)
  | importData links categories =>
    rw [length_links_merge] at hlen'
    refine merge_storable hc ?_ hlen'
    intro m hm
    obtain ⟨l, hl, hs⟩ := List.mem_filterMap.mp hm
    obtain ⟨url, title, rfl⟩ := sanitize_eq_some hs
    exact hcommand l hl

end Collection

end Bookmarks
