import Bookmarks.Proofs.Sequence
import Bookmarks.Shelf.Scope

/-! # The order in which links are shown

`Link.compare` compares two keys, one after the other: whether links are pinned, and the rank
by which links in that state are shown (`Link.compare_eq_then`).  So it orders any two links,
and sorting always brings a shelf into that order (`sort_shown`).  A shelf in order falls into
two parts: **its pins, as they are shown, followed by everything else, as it is shown**
(`Shown.eq_pins_append`).

Whether a shelf is in order depends only on what `standing` reads off every link:
its pinned state and the rank by which it is shown.
-/
namespace Bookmarks

namespace Link

/-- The rank by which a link is shown among the links in the same state of being
pinned. -/
def shownRank (l : Link) : Int :=
  if l.pinned then l.pinnedOrder.getD 0 else l.orderKey

/-- All that decides where a link is shown. -/
def standing (l : Link) : Bool × Int :=
  (l.pinned, l.shownRank)

theorem le_iff (a b : Link) :
    a.le b ↔ (a.pinned = true ∧ b.pinned = false) ∨ (a.pinned = b.pinned ∧ a.shownRank ≤ b.shownRank) := by
  unfold le compare shownRank
  cases ha : a.pinned <;> cases hb : b.pinned <;> simp [Int.isLE_compare]

/-- Links are compared by their pinned state first, and then by the ranks by which they are
shown. -/
theorem compare_eq_then (a b : Link) :
    a.compare b = (Ord.compare (!a.pinned) (!b.pinned)).then (Ord.compare a.shownRank b.shownRank) := by
  unfold compare shownRank
  cases a.pinned <;> cases b.pinned <;> rfl

theorem compare_eq_compareLex :
    Link.compare = compareLex (compareOn fun l => !l.pinned) (compareOn Link.shownRank) := by
  funext a b
  exact compare_eq_then a b

instance : Std.TransCmp Link.compare :=
  compare_eq_compareLex ▸ inferInstance

/-- Comparing turns round with its arguments. -/
theorem compare_swap (a b : Link) : b.compare a = (a.compare b).swap :=
  Std.OrientedCmp.eq_swap

/-- Any two links can be compared. -/
theorem isPreorder_le : Sequence.IsPreorder Link.le where
  trans a b c := Std.TransCmp.isLE_trans
  total a b := by
    rw [le, le, compare_swap a b]
    cases a.compare b <;> decide

theorem le_of_standing_eq {a b a' b' : Link} (ha : a.standing = a'.standing)
    (hb : b.standing = b'.standing) (h : a.le b) : a'.le b' := by
  obtain ⟨ha, ha'⟩ := Prod.mk.injEq .. ▸ ha
  obtain ⟨hb, hb'⟩ := Prod.mk.injEq .. ▸ hb
  rw [le_iff] at h ⊢
  rwa [← ha, ← hb, ← ha', ← hb']

end Link

namespace Shelf

/-- The links stand in the order in which they are shown. -/
def Shown (links : Shelf) : Prop :=
  links.Pairwise fun a b => a.le b

instance (links : Shelf) : Decidable (Shown links) :=
  inferInstanceAs (Decidable (links.Pairwise fun a b => a.le b))

variable {links links' : Shelf}

theorem sort_perm (links : Shelf) : (sort links).Perm links :=
  Sequence.sortBy_perm _ _

theorem sort_shown (links : Shelf) : Shown (sort links) :=
  Sequence.sortBy_pairwise Link.isPreorder_le links

theorem Shown.sort_eq (h : Shown links) : sort links = links :=
  Sequence.sortBy_of_pairwise h

theorem Shown.filter (h : Shown links) (p : Link → Bool) : Shown (links.filter p) :=
  List.Pairwise.sublist List.filter_sublist h

/-- A shelf in order stays so when no link changes its standing. -/
theorem Shown.of_standing_eq (h : Shown links) (heq : links.map Link.standing = links'.map Link.standing) :
    Shown links' := by
  -- whether one link may stand before another can be told from the two standings
  have key : (links.map Link.standing).Pairwise fun s t =>
      ∀ a b : Link, a.standing = s → b.standing = t → a.le b := by
    refine List.pairwise_map.mpr (List.Pairwise.imp ?_ h)
    intro a b hab a' b' ha hb
    exact Link.le_of_standing_eq ha.symm hb.symm hab
  rw [heq] at key
  exact (List.pairwise_map.mp key).imp fun h => h _ _ rfl rfl

/-- In a shelf in order the pinned links are those up to the first unpinned one. -/
theorem Shown.takeWhile_pinned (h : Shown links) :
    links.takeWhile (·.pinned) = links.filter (·.pinned) := by
  induction links with
  | nil => rfl
  | cons l links ih =>
    obtain ⟨hl, hlinks⟩ := List.pairwise_cons.mp h
    by_cases hp : l.pinned
    · rw [List.takeWhile_cons_of_pos hp, List.filter_cons_of_pos hp, ih hlinks]
    · rw [List.takeWhile_cons_of_neg hp, List.filter_cons_of_neg hp, eq_comm, List.filter_eq_nil_iff]
      intro m hm hmp
      rcases (Link.le_iff _ _).mp (hl m hm) with ⟨hl', _⟩ | ⟨heq, _⟩
      · exact hp hl'
      · exact hp (heq.trans hmp)

/-- In a shelf in order the unpinned links are those from the first of them on. -/
theorem Shown.dropWhile_pinned (h : Shown links) :
    links.dropWhile (·.pinned) = links.filter fun l => !l.pinned := by
  induction links with
  | nil => rfl
  | cons l links ih =>
    obtain ⟨hl, hlinks⟩ := List.pairwise_cons.mp h
    by_cases hp : l.pinned
    · rw [List.dropWhile_cons_of_pos hp, List.filter_cons_of_neg (by simp [hp]), ih hlinks]
    · rw [List.dropWhile_cons_of_neg hp, List.filter_cons_of_pos (by simp [hp]), eq_comm]
      refine congrArg (l :: ·) (List.filter_eq_self.mpr ?_)
      intro m hm
      rcases (Link.le_iff _ _).mp (hl m hm) with ⟨hl', _⟩ | ⟨heq, _⟩
      · exact absurd hl' hp
      · simpa [← heq] using hp

/-- What is shown for a category id: the unpinned links of the category, or of all of them. -/
theorem contains_ofCategory_iff {l : Link} {c : String} : (Scope.ofCategory c).contains l ↔
    l.pinned = false ∧ (c = Category.allId ∨ l.categoryId = c) := by
  unfold Scope.ofCategory
  split
  · next hc => simp [Scope.contains, hc]
  · next hc => simp [Scope.contains, hc]

/-- **A shelf in order is its pins followed by what is shown for all categories.** -/
theorem Shown.eq_pins_append (h : Shown links) : links = pins links ++ inCategory links Category.allId := by
  have hall : (Scope.ofCategory Category.allId).contains = fun l => !l.pinned := by
    funext l
    simp [Scope.ofCategory, Scope.contains]
  unfold pins inCategory
  rw [hall, (h.filter _).sort_eq, (h.filter _).sort_eq, ← h.takeWhile_pinned, ← h.dropWhile_pinned]
  exact List.takeWhile_append_dropWhile.symm

end Shelf

end Bookmarks
