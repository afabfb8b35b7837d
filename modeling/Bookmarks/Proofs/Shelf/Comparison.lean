import Bookmarks.Proofs.Sequence.Stable
import Bookmarks.Proofs.Shelf.Order

/-! # Comparing links and sorting them

Any two links can be compared, whatever ranks they have or lack: comparing is reflexive,
transitive and turns round with its arguments.  Two links tie if they compare equal, which is
to say that either may be shown before the other (`ties_le`).

Sorting brings a list into this order and leaves the links that tie as they stood
(`filter_sort`).  These two properties determine the sorted list, so nothing that is said about
it depends on how it is sorted.
-/
namespace Bookmarks

namespace Link

/-- A link may be shown before another exactly if the other does not compare less. -/
theorem le_iff_compare_ne_lt (a b : Link) : a.le b ↔ b.compare a ≠ .lt := by
  rw [compare_swap a b, le]
  cases a.compare b <;> decide

/-- Two links may stand either way exactly if they compare equal. -/
theorem ties_le (l m : Link) : Sequence.ties le l m = (l.compare m == .eq) := by
  rw [Sequence.ties, le, le, compare_swap l m]
  cases l.compare m <;> rfl

end Link

namespace Shelf

variable {links : Shelf}

theorem shown_iff_compare : Shown links ↔ links.Pairwise fun a b => b.compare a ≠ .lt := by
  unfold Shown
  simp only [Link.le_iff_compare_ne_lt]

/-- Sorting changes nothing exactly if the links are in order. -/
theorem sort_eq_self_iff : sort links = links ↔ Shown links :=
  ⟨fun h => h ▸ sort_shown links, Shown.sort_eq⟩

/-- The links that tie with a link stand after sorting as they stood before. -/
theorem filter_sort (l : Link) (links : Shelf) :
    (sort links).filter (fun m => l.compare m == .eq) = links.filter fun m => l.compare m == .eq := by
  simp only [← Link.ties_le]
  exact Sequence.filter_ties_sortBy Link.isPreorder_le l links

/-- No other list is in order and has the same ties. -/
theorem eq_sort {ms : Shelf} (hms : Shown ms)
    (hties : ∀ l : Link, ms.filter (fun m => l.compare m == .eq) = links.filter fun m => l.compare m == .eq) :
    ms = sort links := by
  simp only [← Link.ties_le] at hties
  exact (Sequence.eq_sortBy_iff Link.isPreorder_le).mpr ⟨hms, hties⟩

/-- **Comparing orders all links, and sorting is the stable sort by it.**  Comparing is
reflexive, transitive and turns round with its arguments.  Sorting keeps the links, leaves no
link behind one that compares less, and keeps the order of links that tie; no other list is in
order and keeps it.  Sorting changes nothing exactly if the links are in order, and so nothing
the second time. -/
theorem compare_total_and_sort_stable :
    (∀ a : Link, a.compare a = .eq) ∧
    (∀ a b : Link, b.compare a = (a.compare b).swap) ∧
    (∀ a b c : Link, (a.compare b).isLE → (b.compare c).isLE → (a.compare c).isLE) ∧
    ∀ links : Shelf,
      (sort links).Perm links ∧
      (sort links).Pairwise (fun a b => b.compare a ≠ .lt) ∧
      (∀ l : Link, (sort links).filter (fun m => l.compare m == .eq) =
        links.filter fun m => l.compare m == .eq) ∧
      (∀ ms : Shelf, ms.Pairwise (fun a b => b.compare a ≠ .lt) →
        (∀ l : Link, ms.filter (fun m => l.compare m == .eq) = links.filter fun m => l.compare m == .eq) →
        ms = sort links) ∧
      (sort links = links ↔ links.Pairwise fun a b => b.compare a ≠ .lt) ∧
      sort (sort links) = sort links := by
  refine ⟨fun a => Std.ReflCmp.compare_self, Link.compare_swap, fun a b c => Std.TransCmp.isLE_trans, fun links => ?_⟩
  have hshown : Shown (sort links) := sort_shown links
  exact ⟨sort_perm links, shown_iff_compare.mp hshown, fun l => filter_sort l links,
    fun ms hms => eq_sort (shown_iff_compare.mpr hms), sort_eq_self_iff.trans shown_iff_compare, hshown.sort_eq⟩

/-- Pins with and without a rank, of which two tie, before links that tie by an order and by a
time of creation. -/
theorem ties_left_as_they_stood :
    let link (id : String) (pinned : Bool) (order pinnedOrder : Option Int) (createdAt : Int) : Link :=
      ⟨id, "https://lean-lang.org", "Lean", none, "dev", none, pinned, order, pinnedOrder, createdAt⟩
    let a := link "a" true (some 9) (some (-1)) 1
    let b := link "b" true none none 7
    let c := link "c" true none (some 0) 2
    let d := link "d" false (some 5) none 9
    let e := link "e" false none (some 3) 5
    (a.compare b).isLE ∧ (b.compare e).isLE ∧ (a.compare e).isLE ∧
      [a, b, c, d, e].Pairwise (fun a b => b.compare a ≠ .lt) ∧ sort [a, b, c, d, e] = [a, b, c, d, e] := by
  intro link a b c d e
  obtain ⟨-, -, htrans, hsort⟩ := compare_total_and_sort_stable
  have hab : (a.compare b).isLE := by decide
  have hbe : (b.compare e).isLE := by decide
  have hordered : [a, b, c, d, e].Pairwise fun a b => b.compare a ≠ .lt := by decide
  obtain ⟨-, -, -, -, hself, -⟩ := hsort [a, b, c, d, e]
  exact ⟨hab, hbe, htrans a b e hab hbe, hordered, hself.mpr hordered⟩

end Shelf

end Bookmarks
