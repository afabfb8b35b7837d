import Bookmarks.Proofs.Sequence

/-! # Stable sorting beside other operations

Sorting compares an element only with those that stand behind it.  So **two orders that agree
on every element and those behind it sort a list alike** (`sortBy_congr`), and what stands
behind everything it may stand behind stays there (`sortBy_append`).

Being stable, sorting goes together with picking elements out (`filter_sortBy`).  From that it
is read off which element goes last, wherever it stood (`getLast?_sortBy_middle`).  And a list
whose elements are told apart by the order is what any list of the same elements sorts to
(`sortBy_eq_of_perm`); this is how the elements that were given the ranks `0, 1, …, n - 1` are
found in the order of these ranks, whatever order they were ranked by
(`sortBy_filter_renumber`).

Elements that may stand either way tie.  A sorted list is in order and has the ties of the
list that was sorted, and **no other list is and has** (`eq_sortBy_iff`).
-/
namespace Bookmarks.Sequence

variable {α β : Type} {le le' : α → α → Bool} {x : α} {xs ys : List α}

/-! ## Sorting part of a list -/

theorem insertSorted_eq_cons (h : ∀ y ∈ ys, le x y) : insertSorted le x ys = x :: ys := by
  cases ys with
  | nil => rfl
  | cons y ys => exact if_pos (h y List.mem_cons_self)

theorem insertSorted_append (h : ∀ y ∈ ys, le x y) : insertSorted le x (xs ++ ys) = insertSorted le x xs ++ ys := by
  induction xs with
  | nil => exact insertSorted_eq_cons h
  | cons z xs ih =>
    rw [List.cons_append, insertSorted, insertSorted]
    split
    · rfl
    · rw [ih, List.cons_append]

/-- **What may stand behind everything else is sorted by itself.** -/
theorem sortBy_append (h : ∀ x ∈ xs, ∀ y ∈ ys, le x y) :
    sortBy le (xs ++ ys) = sortBy le xs ++ sortBy le ys := by
  induction xs with
  | nil => rfl
  | cons x xs ih =>
    obtain ⟨hx, hxs⟩ := List.forall_mem_cons.mp h
    rw [List.cons_append, sortBy, sortBy, ih hxs]
    exact insertSorted_append fun y hy => hx y (mem_sortBy.mp hy)

theorem insertSorted_eq_append_singleton (h : ∀ y ∈ ys, ¬ le x y) : insertSorted le x ys = ys ++ [x] := by
  induction ys with
  | nil => rfl
  | cons y ys ih =>
    obtain ⟨hy, hys⟩ := List.forall_mem_cons.mp h
    rw [insertSorted, if_neg hy, ih hys, List.cons_append]

/-- **An element goes last that all before it may stand before, and that may not stand before any
behind it.** -/
theorem sortBy_middle (hxs : ∀ y ∈ xs, le y x) (hys : ∀ y ∈ ys, ¬ le x y) :
    sortBy le (xs ++ x :: ys) = sortBy le (xs ++ ys) ++ [x] := by
  induction xs with
  | nil => exact insertSorted_eq_append_singleton fun y hy => hys y (mem_sortBy.mp hy)
  | cons z xs ih =>
    obtain ⟨hz, hxs⟩ := List.forall_mem_cons.mp hxs
    rw [List.cons_append, List.cons_append, sortBy, sortBy, ih hxs]
    exact insertSorted_append fun y hy => List.mem_singleton.mp hy ▸ hz

/-- An element goes in before the first that it may stand before. -/
theorem insertSorted_eq_takeWhile (le : α → α → Bool) (x : α) (xs : List α) :
    insertSorted le x xs = xs.takeWhile (fun y => !le x y) ++ x :: xs.dropWhile (fun y => !le x y) := by
  induction xs with
  | nil => rfl
  | cons y xs ih =>
    unfold insertSorted
    by_cases h : le x y
    · rw [if_pos h, List.takeWhile_cons_of_neg (by simp [h]), List.dropWhile_cons_of_neg (by simp [h])]
      rfl
    · rw [if_neg h, List.takeWhile_cons_of_pos (by simp [h]), List.dropWhile_cons_of_pos (by simp [h]), ih]
      rfl

theorem insertSorted_congr (h : ∀ y ∈ xs, le x y = le' x y) : insertSorted le x xs = insertSorted le' x xs := by
  induction xs with
  | nil => rfl
  | cons y xs ih =>
    obtain ⟨hy, hxs⟩ := List.forall_mem_cons.mp h
    rw [insertSorted, insertSorted, hy, ih hxs]

/-- **Sorting asks only whether an element may stand before one that stands behind it.** -/
theorem sortBy_congr (h : xs.Pairwise fun x y => le x y = le' x y) : sortBy le xs = sortBy le' xs := by
  induction xs with
  | nil => rfl
  | cons x xs ih =>
    obtain ⟨hx, hxs⟩ := List.pairwise_cons.mp h
    rw [sortBy, sortBy, ih hxs]
    exact insertSorted_congr fun y hy => hx y (mem_sortBy.mp hy)

theorem map_insertSorted (f : α → β) (le : β → β → Bool) (x : α) (xs : List α) :
    (insertSorted (fun x y => le (f x) (f y)) x xs).map f = insertSorted le (f x) (xs.map f) := by
  induction xs with
  | nil => rfl
  | cons y xs ih =>
    rw [List.map_cons, insertSorted, insertSorted]
    split
    · rfl
    · rw [List.map_cons, ih]

/-- Elements may be sorted by what is read off them. -/
theorem map_sortBy (f : α → β) (le : β → β → Bool) (xs : List α) :
    (sortBy (fun x y => le (f x) (f y)) xs).map f = sortBy le (xs.map f) := by
  induction xs with
  | nil => rfl
  | cons x xs ih => rw [sortBy, map_insertSorted, ih, List.map_cons, sortBy]

theorem filter_insertSorted (hle : IsPreorder le) (p : α → Bool) (x : α) (hxs : xs.Pairwise fun a b => le a b) :
    (insertSorted le x xs).filter p = if p x then insertSorted le x (xs.filter p) else xs.filter p := by
  induction xs with
  | nil => rw [insertSorted, List.filter_cons]; rfl
  | cons y xs ih =>
    obtain ⟨hy, hxs'⟩ := List.pairwise_cons.mp hxs
    rw [insertSorted]
    split
    · -- `x` stands before `y`, and so before whatever is picked out
      next hxy =>
      have hfront : insertSorted le x ((y :: xs).filter p) = x :: (y :: xs).filter p := by
        refine insertSorted_eq_cons fun z hz => ?_
        rcases List.mem_cons.mp (List.mem_filter.mp hz).1 with rfl | hz
        · exact hxy
        · exact hle.trans _ _ _ hxy (hy z hz)
      rw [hfront, List.filter_cons]
    · next hxy =>
      rw [List.filter_cons, ih hxs', List.filter_cons]
      cases hpx : p x <;> cases hpy : p y <;> simp [insertSorted, hxy]

/-- **Picking elements out and sorting can be done in either order.** -/
theorem filter_sortBy (hle : IsPreorder le) (p : α → Bool) (xs : List α) :
    (sortBy le xs).filter p = sortBy le (xs.filter p) := by
  induction xs with
  | nil => rfl
  | cons x xs ih =>
    rw [sortBy, filter_insertSorted hle p x (sortBy_pairwise hle xs), ih, List.filter_cons]
    split <;> rfl

/-- **What may stand either way among itself is left in its order.** -/
theorem filter_sortBy_of_ties (hle : IsPreorder le) {p : α → Bool}
    (h : ∀ x ∈ xs, ∀ y ∈ xs, p x → p y → le x y) : (sortBy le xs).filter p = xs.filter p := by
  rw [filter_sortBy hle]
  refine sortBy_of_pairwise (List.pairwise_of_forall_mem_list fun x hx y hy => ?_)
  obtain ⟨hx, hpx⟩ := List.mem_filter.mp hx
  obtain ⟨hy, hpy⟩ := List.mem_filter.mp hy
  exact h x hx y hy hpx hpy

theorem filter_map_of_eq {f : α → β} {p : α → Bool} {q : β → Bool} (h : ∀ x, q (f x) = p x) (xs : List α) :
    (xs.map f).filter q = (xs.filter p).map f := by
  rw [List.filter_map]
  exact congrArg (List.map f) (List.filter_congr fun x _ => h x)

/-! ## The last element -/

/-- **Nothing else goes last**, if it does not stand there twice. -/
theorem getLast?_sortBy_middle (hle : IsPreorder le) (hx : x ∉ ys) :
    (sortBy le (xs ++ x :: ys)).getLast? = some x ↔ (∀ y ∈ xs, le y x) ∧ ∀ y ∈ ys, ¬ le x y := by
  constructor
  · intro hlast
    have hsplit : (sortBy le (xs ++ x :: ys)).dropLast ++ [x] = sortBy le (xs ++ x :: ys) :=
      List.dropLast_append_getLast? x hlast
    have hall : ∀ y ∈ xs ++ x :: ys, le y x := by
      intro y hy
      have hsorted := sortBy_pairwise hle (xs ++ x :: ys)
      have hmem : y ∈ sortBy le (xs ++ x :: ys) := mem_sortBy.mpr hy
      rw [← hsplit] at hsorted hmem
      rcases List.mem_append.mp hmem with hmem | hmem
      · exact (List.pairwise_append.mp hsorted).2.2 y hmem x List.mem_cons_self
      · obtain rfl := List.mem_singleton.mp hmem
        exact hle.refl y
    have hxx : le x x := hall x (List.mem_append_right _ List.mem_cons_self)
    refine ⟨fun y hy => hall y (List.mem_append_left _ hy), fun y hy hxy => ?_⟩
    -- those that tie with `x` keep their order, so the last of them stands behind `x`
    have hties : (sortBy le (xs ++ x :: ys)).filter (le x) = (xs ++ x :: ys).filter (le x) :=
      filter_sortBy_of_ties hle fun a ha b _ _ hxb => hle.trans _ _ _ (hall a ha) hxb
    have hbehind : ((xs ++ x :: ys).filter (le x)).getLast? = (ys.filter (le x)).getLast? := by
      have hne : ys.filter (le x) ≠ [] := List.ne_nil_of_mem (List.mem_filter.mpr ⟨hy, hxy⟩)
      rw [List.filter_append, List.filter_cons_of_pos hxx, ← List.singleton_append, ← List.append_assoc]
      exact List.getLast?_append_of_ne_nil _ hne
    rw [← hties, ← hsplit, List.filter_append, List.filter_cons_of_pos hxx, List.filter_nil, List.getLast?_append] at hbehind
    exact hx (List.mem_filter.mp (List.mem_of_getLast? hbehind.symm)).1
  · rintro ⟨hxs, hys⟩
    rw [sortBy_middle hxs hys, List.getLast?_append]
    rfl

/-- **What is put behind a list stays last exactly if all of the list may stand before it.** -/
theorem getLast?_sortBy_append_singleton (hle : IsPreorder le) :
    (sortBy le (xs ++ [x])).getLast? = some x ↔ ∀ y ∈ xs, le y x := by
  refine (getLast?_sortBy_middle hle List.not_mem_nil).trans (and_iff_left ?_)
  nofun

/-! ## Elements that the order tells apart -/

/-- **A list is sorted to the only order that it can have.** -/
theorem sortBy_eq_of_perm (hle : IsPreorder le) (hperm : xs.Perm ys)
    (hys : ys.Pairwise fun a b => le a b ∧ ¬ le b a) : sortBy le xs = ys := by
  have hsame : ∀ a ∈ ys, ∀ b ∈ ys, le a b → le b a → a = b := by
    intro a ha b hb hab hba
    obtain ⟨j, hj, rfl⟩ := List.getElem_of_mem ha
    obtain ⟨k, hk, rfl⟩ := List.getElem_of_mem hb
    rcases Nat.lt_trichotomy j k with hjk | rfl | hkj
    · exact absurd hba (List.pairwise_iff_getElem.mp hys j k hj hk hjk).2
    · rfl
    · exact absurd hab (List.pairwise_iff_getElem.mp hys k j hk hj hkj).2
  have hsorted : (sortBy le xs).Perm ys := (sortBy_perm le xs).trans hperm
  refine hsorted.eq_of_pairwise (fun a b ha hb hab hba => ?_) (sortBy_pairwise hle xs) (hys.imp And.left)
  exact hsame a (hsorted.mem_iff.mp ha) b hb hab hba

/-! ## Ties -/

/-- Whether two elements may stand either way. -/
def ties (le : α → α → Bool) (x y : α) : Bool :=
  le x y && le y x

theorem IsPreorder.ties_self (hle : IsPreorder le) (x : α) : ties le x x := by
  simp [ties, hle.refl x]

/-- The first element may stand before every other. -/
theorem IsPreorder.le_of_mem_cons (hle : IsPreorder le) (h : (x :: xs).Pairwise fun a b => le a b) {y : α}
    (hy : y ∈ x :: xs) : le x y := by
  rcases List.mem_cons.mp hy with rfl | hy
  · exact hle.refl y
  · exact (List.pairwise_cons.mp h).1 y hy

theorem mem_iff_of_filter_ties_eq (hle : IsPreorder le) (h : ∀ z, xs.filter (ties le z) = ys.filter (ties le z)) (z : α) :
    z ∈ xs ↔ z ∈ ys := by
  have hz : z ∈ xs.filter (ties le z) ↔ z ∈ ys.filter (ties le z) := by rw [h z]
  simpa [List.mem_filter, hle.ties_self z] using hz

/-- **A list in order is told by its ties**: by the elements, in their order, that may stand
either way with one of them. -/
theorem eq_of_filter_ties_eq (hle : IsPreorder le) (hxs : xs.Pairwise fun a b => le a b)
    (hys : ys.Pairwise fun a b => le a b) (h : ∀ z, xs.filter (ties le z) = ys.filter (ties le z)) : xs = ys := by
  induction xs generalizing ys with
  | nil =>
    refine (List.eq_nil_iff_forall_not_mem.mpr fun y hy => ?_).symm
    exact List.not_mem_nil ((mem_iff_of_filter_ties_eq hle h y).mpr hy)
  | cons x xs ih =>
    have hmem := mem_iff_of_filter_ties_eq hle h
    cases ys with
    | nil => exact absurd ((hmem x).mp List.mem_cons_self) List.not_mem_nil
    | cons y ys =>
      -- each of the two in front may stand before the other, so both are first among their ties
      have hxy : ties le x y := by
        have hle₁ : le x y := hle.le_of_mem_cons hxs ((hmem y).mpr List.mem_cons_self)
        have hle₂ : le y x := hle.le_of_mem_cons hys ((hmem x).mp List.mem_cons_self)
        simp [ties, hle₁, hle₂]
      have hfront := h x
      rw [List.filter_cons_of_pos (hle.ties_self x), List.filter_cons_of_pos hxy] at hfront
      obtain rfl := (List.cons.inj hfront).1
      refine congrArg (x :: ·) (ih (List.pairwise_cons.mp hxs).2 (List.pairwise_cons.mp hys).2 fun z => ?_)
      have hz := h z
      rw [List.filter_cons, List.filter_cons] at hz
      by_cases hzx : ties le z x
      · rw [if_pos hzx, if_pos hzx] at hz
        exact (List.cons.inj hz).2
      · rwa [if_neg hzx, if_neg hzx] at hz

/-- Sorting leaves ties in their order. -/
theorem filter_ties_sortBy (hle : IsPreorder le) (z : α) (xs : List α) :
    (sortBy le xs).filter (ties le z) = xs.filter (ties le z) := by
  refine filter_sortBy_of_ties hle fun x _ y _ hx hy => ?_
  simp only [ties, Bool.and_eq_true] at hx hy
  exact hle.trans _ _ _ hx.2 hy.1

/-- **The stable sort is determined**: no other list is in order and has the same ties. -/
theorem eq_sortBy_iff (hle : IsPreorder le) : ys = sortBy le xs ↔
    ys.Pairwise (fun a b => le a b) ∧ ∀ z, ys.filter (ties le z) = xs.filter (ties le z) := by
  constructor
  · rintro rfl
    exact ⟨sortBy_pairwise hle xs, fun z => filter_ties_sortBy hle z xs⟩
  · rintro ⟨hys, hties⟩
    refine eq_of_filter_ties_eq hle hys (sortBy_pairwise hle xs) fun z => ?_
    rw [hties z, filter_ties_sortBy hle z xs]

/-! ## Elements by their ranks -/

section Ranks
variable {counts : α → Bool} {rank : α → Int} {assign : Nat → α → α} {ps : List (α × Nat)}

theorem map_fst_filter_zipIdx (counts : α → Bool) (xs : List α) :
    (xs.zipIdx.filter fun p => counts p.1).map (·.1) = xs.filter counts := by
  rw [← filter_map_of_eq (q := counts) (fun _ => rfl), List.zipIdx_map_fst]

/-- The elements that count, by their ranks. -/
theorem map_fst_ranked (counts : α → Bool) (rank : α → Int) (xs : List α) :
    (ranked counts rank xs).map (·.1) = sortBy (fun x y => decide (rank x ≤ rank y)) (xs.filter counts) := by
  rw [← map_fst_filter_zipIdx]
  exact map_sortBy (fun p : α × Nat => p.1) (fun x y => decide (rank x ≤ rank y)) _

/-- The position of an index among the indices of a list of elements with their indices. -/
theorem map_idxOf_eq_mapIdx (hps : (ps.map (·.2)).Nodup) (assign : Nat → α → α) :
    (ps.map fun p => assign ((ps.map (·.2)).idxOf p.2) p.1) = (ps.map (·.1)).mapIdx assign := by
  refine List.ext_getElem (by simp) fun k hk _ => ?_
  have hlt : k < ps.length := by simpa using hk
  have hidx : (ps.map (·.2)).idxOf ps[k].2 = k := by
    have hlt' : k < (ps.map (·.2)).length := by simpa using hk
    simpa using hps.idxOf_getElem k hlt'
  rw [List.getElem_map, List.getElem_mapIdx, List.getElem_map, hidx]

/-- Elements can be picked out before they are renumbered. -/
theorem filter_renumber {p : α → Bool} (hp : ∀ k x, p (assign k x) = p x) (places : List Nat) (xs : List α) :
    (renumber assign places xs).filter p = (xs.zipIdx.filter fun q => p q.1).map fun q =>
      if q.2 ∈ places then assign (places.idxOf q.2) q.1 else q.1 := by
  rw [renumber_eq_map, List.filter_map]
  refine congrArg (List.map _) (List.filter_congr fun q _ => ?_)
  simp only [Function.comp_apply]
  split
  · exact hp _ _
  · rfl

/-- **The elements that count are those that were listed, each with the rank of its place in
the list.** -/
theorem filter_renumber_perm (hcounts : ∀ k x, counts (assign k x) = counts x)
    (hps : ps.Perm (xs.zipIdx.filter fun p => counts p.1)) :
    ((renumber assign (ps.map (·.2)) xs).filter counts).Perm ((ps.map (·.1)).mapIdx assign) := by
  have hplaces : (ps.map (·.2)).Perm (indices counts xs) := hps.map _
  rw [filter_renumber hcounts, ← map_idxOf_eq_mapIdx (nodup_of_perm_indices hplaces)]
  refine List.Perm.trans (List.Perm.of_eq ?_) (hps.symm.map _)
  refine List.map_congr_left fun p hp => if_pos ?_
  exact hplaces.mem_iff.mpr (List.mem_map_of_mem hp)

/-- The elements that do not count are left where they are. -/
theorem filter_not_renumber {places : List Nat} (hcounts : ∀ k x, counts (assign k x) = counts x)
    (hplaces : places.Perm (indices counts xs)) :
    (renumber assign places xs).filter (fun x => !counts x) = xs.filter fun x => !counts x := by
  have hnot : ∀ k x, (!counts (assign k x)) = !counts x := fun k x => congrArg (!·) (hcounts k x)
  rw [filter_renumber hnot, ← map_fst_filter_zipIdx (fun x => !counts x)]
  refine List.map_congr_left fun p hp => if_neg fun hmem => ?_
  -- a place is that of an element that counts
  obtain ⟨hp, hout⟩ := List.mem_filter.mp hp
  obtain ⟨x, hx, hcx⟩ := mem_indices.mp (hplaces.mem_iff.mp hmem)
  rw [List.mem_zipIdx_iff_getElem?.mp hp, Option.some.injEq] at hx
  rw [hx, hcx] at hout
  exact Bool.false_ne_true hout

/-- Sorted by any order that follows the new ranks, they stand in the order in which they were
listed. -/
theorem sortBy_filter_renumber (hle : IsPreorder le) (hcounts : ∀ k x, counts (assign k x) = counts x)
    (hassign : ∀ j k x y, counts x → counts y → (le (assign j x) (assign k y) ↔ j ≤ k))
    (hps : ps.Perm (xs.zipIdx.filter fun p => counts p.1)) :
    sortBy le ((renumber assign (ps.map (·.2)) xs).filter counts) = (ps.map (·.1)).mapIdx assign := by
  refine sortBy_eq_of_perm hle (filter_renumber_perm hcounts hps) ?_
  have hin : ∀ k (hk : k < (ps.map (·.1)).length), counts (ps.map (·.1))[k] := by
    intro k hk
    obtain ⟨p, hp, heq⟩ := List.mem_map.mp (List.getElem_mem hk)
    rw [← heq]
    exact (List.mem_filter.mp (hps.mem_iff.mp hp)).2
  refine List.pairwise_iff_getElem.mpr fun j k hj hk hjk => ?_
  rw [List.length_mapIdx] at hj hk
  rw [List.getElem_mapIdx, List.getElem_mapIdx, hassign j k _ _ (hin j hj) (hin k hk),
    hassign k j _ _ (hin k hk) (hin j hj)]
  omega

end Ranks

end Bookmarks.Sequence
