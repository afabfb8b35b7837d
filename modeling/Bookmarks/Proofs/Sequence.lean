import Bookmarks.Sequence
import Mathlib.Data.List.Nodup

/-! # Sorted sequences and their ranks

Two facts carry everything that is said about the order of links.

**Sorting is stable** (`sortBy_pairwise_before`): of two elements that may stand
either way the one that stood first stands first.  Applied to elements with their
indices, this says that `ranked` lists them by rank and then by index, strictly
(`ranked_pairwise`).

**Renumbering reads the ranks off** (`ranks_renumber_perm`): when the places are those of
the elements that count, in any order, these elements have the ranks
`0, 1, …, n - 1` afterwards, each once.
-/
namespace Bookmarks.Sequence

variable {α β : Type}

/-! ## Sorting -/

/-- An order in which any two elements can be compared; elements that are not equal
may stand either way. -/
structure IsPreorder (le : α → α → Bool) : Prop where
  trans : ∀ a b c, le a b → le b c → le a c
  total : ∀ a b, le a b ∨ le b a

theorem IsPreorder.refl {le : α → α → Bool} (hle : IsPreorder le) (x : α) : le x x :=
  (hle.total x x).elim id id

/-- What a stable sort promises of two elements, one before the other: they stand
in order, and if they might stand either way then they stood so before. -/
def Before (le : α → α → Bool) (stood : α → α → Prop) (a b : α) : Prop :=
  le a b ∧ (le b a → stood a b)

section Sorting
variable {le : α → α → Bool} {stood : α → α → Prop}

theorem insertSorted_pairwise_before (hle : IsPreorder le) {x : α} {xs : List α}
    (hx : ∀ y ∈ xs, stood x y) (hxs : xs.Pairwise (Before le stood)) :
    (insertSorted le x xs).Pairwise (Before le stood) := by
  induction xs with
  | nil => exact List.pairwise_singleton _ _
  | cons y ys ih =>
    obtain ⟨hy, hys⟩ := List.pairwise_cons.mp hxs
    unfold insertSorted
    split
    · rename_i hxy
      -- `x` goes in before `y`, and so before all that `y` stands before
      refine List.pairwise_cons.mpr ⟨fun z hz => ⟨?_, fun _ => hx z hz⟩, hxs⟩
      rcases List.mem_cons.mp hz with rfl | hz
      · exact hxy
      · exact hle.trans _ _ _ hxy (hy z hz).1
    · rename_i hxy
      -- `y` stays in front; it could not stand behind `x`
      have hyx : le y x := (hle.total x y).resolve_left hxy
      refine List.pairwise_cons.mpr ⟨fun z hz => ?_, ih (fun z hz => hx z (List.mem_cons_of_mem _ hz)) hys⟩
      rcases List.mem_cons.mp ((insertSorted_perm le x ys).mem_iff.mp hz) with rfl | hz
      · exact ⟨hyx, fun h => absurd h hxy⟩
      · exact hy z hz

/-- **Sorting is stable.** -/
theorem sortBy_pairwise_before (hle : IsPreorder le) {xs : List α} (hxs : xs.Pairwise stood) :
    (sortBy le xs).Pairwise (Before le stood) := by
  induction xs with
  | nil => exact List.Pairwise.nil
  | cons x xs ih =>
    obtain ⟨hx, hxs⟩ := List.pairwise_cons.mp hxs
    exact insertSorted_pairwise_before hle (fun y hy => hx y (mem_sortBy.mp hy)) (ih hxs)

/-- Sorting puts the elements in order. -/
theorem sortBy_pairwise (hle : IsPreorder le) (xs : List α) :
    (sortBy le xs).Pairwise (fun a b => le a b) := by
  have h : xs.Pairwise fun _ _ => True := List.pairwise_of_forall fun _ _ => trivial
  exact (sortBy_pairwise_before hle h).imp And.left

/-- Sorting leaves a list in order as it is. -/
theorem sortBy_of_pairwise {xs : List α} (h : xs.Pairwise (fun a b => le a b)) : sortBy le xs = xs := by
  induction xs with
  | nil => rfl
  | cons x xs ih =>
    obtain ⟨hx, hxs⟩ := List.pairwise_cons.mp h
    rw [sortBy, ih hxs]
    cases xs with
    | nil => rfl
    | cons y ys => rw [insertSorted, if_pos (hx y List.mem_cons_self)]

end Sorting

/-! ## Ranks -/

section Ranks
variable {counts : α → Bool} {rank : α → Int} {xs : List α}

/-- The indices of the elements that count, in ascending order. -/
def indices (counts : α → Bool) (xs : List α) : List Nat :=
  (xs.zipIdx.filter fun p => counts p.1).map (·.2)

/-- One element with its index comes before another: by its rank, or, if the ranks
are equal, by its index. -/
def RanksBefore (rank : α → Int) (p q : α × Nat) : Prop :=
  rank p.1 < rank q.1 ∨ rank p.1 = rank q.1 ∧ p.2 < q.2

theorem zipIdx_pairwise_lt (xs : List α) : xs.zipIdx.Pairwise fun p q => p.2 < q.2 := by
  have h : (xs.zipIdx.map (·.2)).Pairwise (· < ·) := by
    rw [List.zipIdx_map_snd, List.range'_eq_map_range]
    simpa using List.pairwise_lt_range
  exact List.pairwise_map.mp h

theorem indices_pairwise_lt (counts : α → Bool) (xs : List α) : (indices counts xs).Pairwise (· < ·) :=
  List.pairwise_map.mpr ((zipIdx_pairwise_lt xs).sublist List.filter_sublist)

theorem mem_indices {i : Nat} : i ∈ indices counts xs ↔ ∃ x, xs[i]? = some x ∧ counts x := by
  simp only [indices, List.mem_map, List.mem_filter, List.mem_zipIdx_iff_getElem?]
  constructor
  · rintro ⟨p, ⟨hp, hc⟩, rfl⟩
    exact ⟨p.1, hp, hc⟩
  · rintro ⟨x, hx, hc⟩
    exact ⟨(x, i), ⟨hx, hc⟩, rfl⟩

@[simp] theorem length_indices (counts : α → Bool) (xs : List α) :
    (indices counts xs).length = xs.countP counts := by
  have h : xs.countP counts = (xs.zipIdx.map (·.1)).countP counts := by rw [List.zipIdx_map_fst]
  rw [h, List.countP_map, indices, List.length_map, List.countP_eq_length_filter]
  rfl

/-- Elements may be ordered by a number that is read off them. -/
theorem isPreorder_key (key : α → Int) : IsPreorder fun x y => decide (key x ≤ key y) where
  trans a b c hab hbc := by
    simp only [decide_eq_true_eq] at hab hbc ⊢
    omega
  total a b := by
    simp only [decide_eq_true_eq]
    omega

theorem ranked_perm (counts : α → Bool) (rank : α → Int) (xs : List α) :
    (ranked counts rank xs).Perm (xs.zipIdx.filter fun p => counts p.1) :=
  sortBy_perm _ _

/-- **The elements that count are listed by rank, and then by index.** -/
theorem ranked_pairwise (counts : α → Bool) (rank : α → Int) (xs : List α) :
    (ranked counts rank xs).Pairwise (RanksBefore rank) := by
  have h := (zipIdx_pairwise_lt xs).sublist (List.filter_sublist (p := fun p => counts p.1))
  refine (sortBy_pairwise_before (isPreorder_key fun p : α × Nat => rank p.1) h).imp ?_
  intro p q hpq
  obtain ⟨hle, hlt⟩ := hpq
  simp only [decide_eq_true_eq] at hle hlt
  rcases Int.lt_or_eq_of_le hle with h | h
  · exact Or.inl h
  · exact Or.inr ⟨h, hlt (Int.le_of_eq h.symm)⟩

theorem mem_ranked {p : α × Nat} : p ∈ ranked counts rank xs ↔ xs[p.2]? = some p.1 ∧ counts p.1 := by
  rw [(ranked_perm counts rank xs).mem_iff, List.mem_filter, List.mem_zipIdx_iff_getElem?]

theorem places_perm (counts : α → Bool) (rank : α → Int) (xs : List α) :
    ((ranked counts rank xs).map (·.2)).Perm (indices counts xs) :=
  (ranked_perm counts rank xs).map _

theorem nodup_of_perm_indices {places : List Nat} (h : places.Perm (indices counts xs)) : places.Nodup :=
  h.nodup_iff.mpr ((indices_pairwise_lt counts xs).imp Nat.ne_of_lt)

/-- Where an element that counts stands among the ranked ones. -/
theorem exists_getElem_ranked (rank : α → Int) {i : Nat} {x : α} (hx : xs[i]? = some x)
    (hc : counts x) :
    ∃ k, ∃ h : k < (ranked counts rank xs).length, (ranked counts rank xs)[k] = (x, i) :=
  List.getElem_of_mem (mem_ranked.mpr ⟨hx, hc⟩)

theorem idxOf_places {k : Nat} (h : k < (ranked counts rank xs).length) :
    ((ranked counts rank xs).map (·.2)).idxOf (ranked counts rank xs)[k].2 = k := by
  have hnd := nodup_of_perm_indices (places_perm counts rank xs)
  have hk : k < ((ranked counts rank xs).map (·.2)).length := by simpa using h
  have := hnd.idxOf_getElem k hk
  simpa using this

/-- **Of two elements that count, the one that comes before the other by rank and
index gets the smaller rank.** -/
theorem idxOf_places_lt_iff {i j : Nat} {x y : α} (hx : xs[i]? = some x) (hcx : counts x)
    (hy : xs[j]? = some y) (hcy : counts y) :
    ((ranked counts rank xs).map (·.2)).idxOf i < ((ranked counts rank xs).map (·.2)).idxOf j ↔
      RanksBefore rank (x, i) (y, j) := by
  obtain ⟨k, hk, hki⟩ := exists_getElem_ranked rank hx hcx
  obtain ⟨m, hm, hmj⟩ := exists_getElem_ranked rank hy hcy
  have hpw := List.pairwise_iff_getElem.mp (ranked_pairwise counts rank xs)
  -- the two elements are the `k`-th and the `m`-th of the ranked ones
  have ek := idxOf_places hk
  have em := idxOf_places hm
  rw [hki] at ek
  rw [hmj] at em
  rw [ek, em]
  constructor
  · intro hlt
    have := hpw k m hk hm hlt
    rwa [hki, hmj] at this
  · intro hb
    rcases Nat.lt_trichotomy k m with hlt | rfl | hlt
    · exact hlt
    · rw [hki] at hmj
      obtain ⟨rfl, rfl⟩ := Prod.mk.injEq .. ▸ hmj
      simp [RanksBefore] at hb
    · have := hpw m k hm hk hlt
      rw [hki, hmj] at this
      unfold RanksBefore at hb this
      dsimp only at hb this
      omega

/-- Elements with the ranks `0, 1, …, n - 1`, each once, are listed by them. -/
theorem map_rank_ranked {n : Nat}
    (h : ((xs.filter counts).map rank).Perm ((List.range n).map fun k : Nat => (k : Int))) :
    (ranked counts rank xs).map (fun p => rank p.1) = (List.range n).map fun k : Nat => (k : Int) := by
  have hfst : (xs.zipIdx.filter fun p => counts p.1).map (fun p => rank p.1) = (xs.filter counts).map rank := by
    have hunzip : (xs.zipIdx.filter fun p => counts p.1).map (fun p => rank p.1) =
        ((xs.zipIdx.map (·.1)).filter counts).map rank := by
      rw [List.filter_map, List.map_map]
      rfl
    rw [hunzip, List.zipIdx_map_fst]
  have hperm := ((ranked_perm counts rank xs).map fun p => rank p.1).trans (hfst ▸ h)
  -- both lists ascend, so having the same elements they are the same
  refine List.Perm.eq_of_pairwise (fun a b _ _ => Int.le_antisymm) ?_ ?_ hperm
  · refine List.pairwise_map.mpr ((ranked_pairwise _ _ _).imp ?_)
    rintro p q (hlt | ⟨heq, -⟩)
    · exact Int.le_of_lt hlt
    · exact Int.le_of_eq heq
  · refine List.pairwise_map.mpr (List.pairwise_lt_range.imp ?_)
    intro a b hab
    omega

end Ranks

/-! ## Renumbering -/

section Renumber
variable {counts : α → Bool} {assign : Nat → α → α} {places : List Nat} {xs : List α}

theorem renumber_eq_map (assign : Nat → α → α) (places : List Nat) (xs : List α) :
    renumber assign places xs = xs.zipIdx.map fun p =>
      if p.2 ∈ places then assign (places.idxOf p.2) p.1 else p.1 := by
  unfold renumber
  rw [List.mapIdx_eq_zipIdx_map]
  refine List.map_congr_left ?_
  intro p _
  dsimp only
  split
  · rename_i k hk
    have hmem : p.2 ∈ places := List.isSome_idxOf?.mp (by rw [hk]; rfl)
    have heq : places.idxOf p.2 = k := by
      rw [List.idxOf_eq_getD_idxOf?, hk]; rfl
    rw [if_pos hmem, heq]
  · rename_i hk
    rw [if_neg (List.idxOf?_eq_none_iff.mp hk)]

theorem getElem?_renumber (assign : Nat → α → α) (places : List Nat) (xs : List α) (i : Nat) :
    (renumber assign places xs)[i]? =
      xs[i]?.map fun x => if i ∈ places then assign (places.idxOf i) x else x := by
  rw [renumber_eq_map, List.getElem?_map, List.getElem?_zipIdx]
  cases xs[i]? <;> simp

/-- What assigning a rank leaves alone, renumbering leaves alone. -/
theorem map_renumber {f : α → β} (hf : ∀ k x, f (assign k x) = f x) (places : List Nat) (xs : List α) :
    (renumber assign places xs).map f = xs.map f := by
  refine List.ext_getElem? fun i => ?_
  rw [List.getElem?_map, List.getElem?_map, getElem?_renumber]
  cases xs[i]? with
  | none => rfl
  | some x =>
    simp only [Option.map_some]
    split
    · rw [hf]
    · rfl

/-- An element after renumbering is one of before, with a rank or without. -/
theorem mem_renumber {y : α} (h : y ∈ renumber assign places xs) :
    ∃ x ∈ xs, y = x ∨ ∃ k, k < places.length ∧ y = assign k x := by
  obtain ⟨i, hi⟩ := List.getElem?_of_mem h
  rw [getElem?_renumber] at hi
  obtain ⟨x, hx, rfl⟩ := Option.map_eq_some_iff.mp hi
  refine ⟨x, List.mem_of_getElem? hx, ?_⟩
  split
  · rename_i hmem
    exact Or.inr ⟨_, List.idxOf_lt_length_of_mem hmem, rfl⟩
  · exact Or.inl rfl

theorem map_idxOf_self {places : List Nat} (h : places.Nodup) :
    places.map places.idxOf = List.range places.length := by
  refine List.ext_getElem (by simp) fun k hk _ => ?_
  rw [List.getElem_map, List.getElem_range, h.idxOf_getElem]

/-- **The elements that count have the ranks `0, 1, …, n - 1`, each once**, after
they were renumbered in whatever order. -/
theorem ranks_renumber_perm {read : α → β} {value : Nat → β}
    (hcounts : ∀ k x, counts (assign k x) = counts x) (hread : ∀ k x, read (assign k x) = value k)
    (hplaces : places.Perm (indices counts xs)) :
    (((renumber assign places xs).filter counts).map read).Perm
      ((List.range (xs.countP counts)).map value) := by
  -- an element that counts reads as the position of its index among the places
  have hfilter : ((renumber assign places xs).filter counts).map read =
      (indices counts xs).map (value ∘ places.idxOf) := by
    rw [renumber_eq_map, List.filter_map, List.map_map, indices, List.map_map]
    have hc : (counts ∘ fun p : α × Nat =>
        if p.2 ∈ places then assign (places.idxOf p.2) p.1 else p.1) = fun p => counts p.1 := by
      funext p
      simp only [Function.comp_apply]
      split
      · exact hcounts _ _
      · rfl
    rw [hc]
    refine List.map_congr_left fun p hp => ?_
    have hmem : p.2 ∈ places := hplaces.mem_iff.mpr (List.mem_map_of_mem hp)
    simp only [Function.comp_apply, if_pos hmem, hread]
  -- and the positions of the places among themselves are all numbers in turn
  rw [hfilter, ← List.map_map, ← length_indices counts xs, ← hplaces.length_eq,
    ← map_idxOf_self (nodup_of_perm_indices hplaces)]
  exact (hplaces.symm.map _).map _

end Renumber

/-! ## Moving and changing -/

/-- Moving an element keeps the elements. -/
theorem move_perm (source target : Nat) (xs : List α) : (move source target xs).Perm xs := by
  unfold move
  split
  · exact List.Perm.refl _
  · rename_i h
    split
    · rename_i x hx
      obtain ⟨hlt, rfl⟩ := List.getElem?_eq_some_iff.mp hx
      have hle : target ≤ (xs.eraseIdx source).length := by
        rw [List.length_eraseIdx_of_lt hlt]
        omega
      have hsplit : xs.take source ++ xs[source] :: xs.drop (source + 1) = xs := by
        rw [List.getElem_cons_drop, List.take_append_drop]
      have hmiddle : xs.Perm (xs[source] :: xs.eraseIdx source) := by
        rw [List.eraseIdx_eq_take_drop_succ]
        nth_rewrite 1 [← hsplit]
        exact List.perm_middle
      exact (List.perm_insertIdx _ _ hle).trans hmiddle.symm
    · exact List.Perm.refl _

/-- The element that is moved stands where it was moved to. -/
theorem getElem?_move {source target : Nat} {xs : List α} (hs : source < xs.length) (ht : target < xs.length) :
    (move source target xs)[target]? = xs[source]? := by
  unfold move
  by_cases heq : source = target
  · rw [if_pos (Or.inl heq), heq]
  · have hin : ¬ (source = target ∨ xs.length ≤ source ∨ xs.length ≤ target) := by omega
    have hlen : target ≤ (xs.eraseIdx source).length := by
      rw [List.length_eraseIdx_of_lt hs]
      omega
    rw [if_neg hin, List.getElem?_eq_getElem hs]
    dsimp only
    rw [List.getElem?_insertIdx_self, if_pos hlen]

/-- Taking out the first element that fits leaves all the others. -/
theorem find?_cons_eraseP_perm {p : α → Bool} {x : α} {xs : List α} (h : xs.find? p = some x) :
    xs.Perm (x :: xs.eraseP p) := by
  induction xs with
  | nil => simp at h
  | cons y ys ih =>
    by_cases hy : p y
    · rw [List.find?_cons_of_pos hy, Option.some.injEq] at h
      rw [List.eraseP_cons_of_pos hy, h]
    · rw [List.find?_cons_of_neg hy] at h
      rw [List.eraseP_cons_of_neg hy]
      exact ((ih h).cons y).trans (List.Perm.swap x y _)

section Modify
variable {fits : α → Bool} {change : α → α} {xs ys : List α}

/-- There is a list with an element changed exactly when there is one to change. -/
theorem modifyFirst?_eq_none_iff : modifyFirst? fits change xs = none ↔ xs.find? fits = none := by
  rw [← Option.isNone_iff_eq_none, ← Option.isNone_iff_eq_none, ← Option.not_isSome,
    ← Option.not_isSome, modifyFirst?_isSome, List.isSome_find?]

/-- What the change leaves alone in the element that fits stays as it is. -/
theorem map_modifyFirst? {f : α → β} {x : α} (h : modifyFirst? fits change xs = some ys)
    (hx : xs.find? fits = some x) (hf : f (change x) = f x) : ys.map f = xs.map f := by
  induction xs generalizing ys with
  | nil => simp [modifyFirst?] at h
  | cons z zs ih =>
    by_cases hz : fits z
    · simp only [modifyFirst?, hz, if_true, Option.some.injEq, List.find?_cons] at h hx
      subst h hx
      rw [List.map_cons, List.map_cons, hf]
    · simp only [modifyFirst?, hz, Bool.false_eq_true, if_false, Option.map_eq_some_iff,
        List.find?_cons] at h hx
      obtain ⟨ws, hws, rfl⟩ := h
      rw [List.map_cons, List.map_cons, ih hws hx]

theorem find?_of_modifyFirst? (h : modifyFirst? fits change xs = some ys) : ∃ x, xs.find? fits = some x := by
  cases hx : xs.find? fits with
  | some x => exact ⟨x, rfl⟩
  | none =>
    rw [modifyFirst?_eq_none_iff.mpr hx] at h
    cases h

theorem length_modifyFirst? (h : modifyFirst? fits change xs = some ys) : ys.length = xs.length := by
  obtain ⟨x, hx⟩ := find?_of_modifyFirst? h
  have hmap := map_modifyFirst? h hx (f := fun _ => ()) rfl
  simpa using congrArg List.length hmap

/-- An element afterwards is one of before, or the one that was changed. -/
theorem mem_modifyFirst? {x y : α} (h : modifyFirst? fits change xs = some ys)
    (hx : xs.find? fits = some x) (hy : y ∈ ys) : y ∈ xs ∨ y = change x := by
  induction xs generalizing ys with
  | nil => simp [modifyFirst?] at h
  | cons z zs ih =>
    by_cases hz : fits z
    · simp only [modifyFirst?, hz, if_true, Option.some.injEq, List.find?_cons] at h hx
      subst h hx
      rcases List.mem_cons.mp hy with rfl | hy
      · exact Or.inr rfl
      · exact Or.inl (List.mem_cons_of_mem _ hy)
    · simp only [modifyFirst?, hz, Bool.false_eq_true, if_false, Option.map_eq_some_iff,
        List.find?_cons] at h hx
      obtain ⟨ws, hws, rfl⟩ := h
      rcases List.mem_cons.mp hy with rfl | hy
      · exact Or.inl List.mem_cons_self
      · exact (ih hws hx hy).imp_left (List.mem_cons_of_mem _)

/-- Changing one element leaves all the others. -/
theorem modifyFirst?_perm {x : α} (h : modifyFirst? fits change xs = some ys) (hx : xs.find? fits = some x) :
    ys.Perm (change x :: xs.eraseP fits) := by
  induction xs generalizing ys with
  | nil => simp [modifyFirst?] at h
  | cons z zs ih =>
    by_cases hz : fits z
    · simp only [modifyFirst?, hz, if_true, Option.some.injEq, List.find?_cons] at h hx
      subst h hx
      rw [List.eraseP_cons_of_pos hz]
    · simp only [modifyFirst?, hz, Bool.false_eq_true, if_false, Option.map_eq_some_iff,
        List.find?_cons] at h hx
      obtain ⟨ws, hws, rfl⟩ := h
      rw [List.eraseP_cons_of_neg hz]
      exact ((ih hws hx).cons z).trans (List.Perm.swap (change x) z _)

/-- A changed element that still fits is the first to fit. -/
theorem find?_modifyFirst? {x : α} (h : modifyFirst? fits change xs = some ys) (hx : xs.find? fits = some x)
    (hfits : fits (change x)) : ys.find? fits = some (change x) := by
  induction xs generalizing ys with
  | nil => simp [modifyFirst?] at h
  | cons z zs ih =>
    by_cases hz : fits z
    · simp only [modifyFirst?, hz, if_true, Option.some.injEq, List.find?_cons] at h hx
      subst h hx
      exact List.find?_cons_of_pos hfits
    · simp only [modifyFirst?, hz, Bool.false_eq_true, if_false, Option.map_eq_some_iff,
        List.find?_cons] at h hx
      obtain ⟨ws, hws, rfl⟩ := h
      rw [List.find?_cons_of_neg hz]
      exact ih hws hx

/-- A change that leaves the element that fits as it is leaves the list as it is. -/
theorem modifyFirst?_eq_self {x : α} (hx : xs.find? fits = some x) (hchange : change x = x) :
    modifyFirst? fits change xs = some xs := by
  cases h : modifyFirst? fits change xs with
  | none =>
    rw [modifyFirst?_eq_none_iff.mp h] at hx
    cases hx
  | some ys =>
    have hmap : ys.map id = xs.map id := map_modifyFirst? h hx hchange
    rw [List.map_id, List.map_id] at hmap
    rw [hmap]

/-- Changing one element from counted to not counted, or back, changes the count. -/
theorem countP_modifyFirst?_ne {counts : α → Bool} (h : modifyFirst? fits change xs = some ys)
    (hflip : ∀ x, counts (change x) = !counts x) : ys.countP counts ≠ xs.countP counts := by
  induction xs generalizing ys with
  | nil => simp [modifyFirst?] at h
  | cons z zs ih =>
    by_cases hz : fits z
    · simp only [modifyFirst?, hz, if_true, Option.some.injEq] at h
      subst h
      have hz' := hflip z
      cases hc : counts z with
      | true =>
        rw [hc] at hz'
        rw [List.countP_cons_of_neg (by simp [hz']), List.countP_cons_of_pos hc]
        omega
      | false =>
        rw [hc] at hz'
        rw [List.countP_cons_of_pos (by simp [hz']), List.countP_cons_of_neg (by simp [hc])]
        omega
    · simp only [modifyFirst?, hz, Bool.false_eq_true, if_false, Option.map_eq_some_iff] at h
      obtain ⟨ws, hws, rfl⟩ := h
      have hne := ih hws
      rw [List.countP_cons, List.countP_cons]
      omega

end Modify

/-! ## Covering a list -/

/-- No more elements are counted than in two cases that cover them. -/
theorem countP_le_add {p q q' : α → Bool} {xs : List α} (h : ∀ x ∈ xs, p x → q x ∨ q' x) :
    xs.countP p ≤ xs.countP q + xs.countP q' := by
  induction xs with
  | nil => exact Nat.zero_le _
  | cons x xs ih =>
    obtain ⟨hx, hxs⟩ := List.forall_mem_cons.mp h
    have hrest := ih hxs
    rw [List.countP_cons, List.countP_cons, List.countP_cons]
    by_cases hp : p x
    · rcases hx hp with hq | hq
      · rw [if_pos hp, if_pos hq]
        omega
      · rw [if_pos hp, if_pos hq]
        omega
    · rw [if_neg hp]
      omega

/-- Every element but the first and the last stands between the two. -/
theorem exists_ends {R : α → α → Prop} {xs : List α} (h : xs.Pairwise R) (hne : xs ≠ []) :
    ∃ first ∈ xs, ∃ last ∈ xs, ∀ x ∈ xs, x = first ∨ x = last ∨ R first x ∧ R x last := by
  refine ⟨xs.head hne, List.head_mem hne, xs.getLast hne, List.getLast_mem hne, fun x hx => ?_⟩
  have hfirst : x = xs.head hne ∨ R (xs.head hne) x := by
    rw [← List.cons_head_tail hne] at h hx
    exact (List.mem_cons.mp hx).imp_right ((List.pairwise_cons.mp h).1 x)
  have hlast : x = xs.getLast hne ∨ R x (xs.getLast hne) := by
    rw [← List.dropLast_append_getLast hne, List.mem_append, List.mem_singleton] at hx
    rw [← List.dropLast_append_getLast hne] at h
    exact hx.symm.imp_right fun hx => (List.pairwise_append.mp h).2.2 x hx _ List.mem_cons_self
  exact hfirst.imp_right fun hfirst => hlast.imp_right fun hlast => ⟨hfirst, hlast⟩

end Bookmarks.Sequence
