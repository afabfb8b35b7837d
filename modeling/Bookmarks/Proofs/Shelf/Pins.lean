import Bookmarks.Proofs.Shelf.Order

/-! # Counted pins

A shelf is *counted* when its pinned links have the ranks `0, 1, …, n - 1`, each
once, and no other link has a rank.  `compactPins` counts any shelf
(`compactPins_counted`), **changes nothing about one that is counted**
(`Counted.compactPins_eq`), and keeps one in order that has no pin without a rank
(`compactPins_shown`).
-/
namespace Bookmarks.Shelf

/-- The pinned links have the ranks `0, 1, …, n - 1`, each once, and no other link
has a rank. -/
structure Counted (links : Shelf) : Prop where
  ranks : ((links.filter (·.pinned)).map (·.pinnedOrder)).Perm
    ((List.range (pinnedCount links)).map fun k : Nat => some (k : Int))
  unranked : ∀ l ∈ links, l.pinned = false → l.pinnedOrder = none

/-- What decides whether a shelf is counted. -/
def pinState (l : Link) : Bool × Option Int :=
  (l.pinned, l.pinnedOrder)

variable {links links' : Shelf} {l : Link}

/-! ## What counting depends on -/

theorem Counted.of_perm (h : Counted links) (hp : links.Perm links') : Counted links' where
  ranks := by
    have hcount : pinnedCount links' = pinnedCount links := (hp.countP_eq _).symm
    rw [hcount]
    exact ((hp.filter _).map _).symm.trans h.ranks
  unranked l hl := h.unranked l (hp.mem_iff.mpr hl)

theorem pinnedOrders_eq (links : Shelf) : (links.filter (·.pinned)).map (·.pinnedOrder) =
    ((links.map pinState).filter (·.1)).map (·.2) := by
  rw [List.filter_map, List.map_map]
  rfl

theorem pinnedCount_eq_countP (links : Shelf) : pinnedCount links = (links.map (·.pinned)).countP id := by
  rw [List.countP_map]
  rfl

theorem Counted.of_pinState_eq (h : Counted links) (heq : links.map pinState = links'.map pinState) :
    Counted links' where
  ranks := by
    have hpinned : links.map (·.pinned) = links'.map (·.pinned) := by
      have := congrArg (List.map Prod.fst) heq
      rwa [List.map_map, List.map_map] at this
    rw [pinnedOrders_eq, pinnedCount_eq_countP, ← heq, ← hpinned, ← pinnedOrders_eq,
      ← pinnedCount_eq_countP]
    exact h.ranks
  unranked l hl hp := by
    have hmem : pinState l ∈ links.map pinState := heq ▸ List.mem_map_of_mem hl
    obtain ⟨m, hm, hml⟩ := List.mem_map.mp hmem
    obtain ⟨hpin, horder⟩ := Prod.mk.injEq .. ▸ hml
    rw [← horder]
    exact h.unranked m hm (hpin.trans hp)

/-- In a counted shelf every pin has a rank below the number of pins. -/
theorem Counted.rank_lt (h : Counted links) (hl : l ∈ links) (hp : l.pinned) :
    ∃ k, k < pinnedCount links ∧ l.pinnedOrder = some (k : Int) := by
  have hmem := h.ranks.mem_iff.mp (List.mem_map_of_mem (List.mem_filter.mpr ⟨hl, hp⟩))
  obtain ⟨k, hk, heq⟩ := List.mem_map.mp hmem
  exact ⟨k, List.mem_range.mp hk, heq.symm⟩

theorem pinnedCount_le_length (links : Shelf) : pinnedCount links ≤ links.length :=
  List.countP_le_length

/-! ## Counting again -/

theorem pinnedPlaces_perm (links : Shelf) :
    (pinnedPlaces links).Perm (Sequence.indices (·.pinned) links) :=
  Sequence.places_perm _ _ _

/-- `compactPins`, link by link. -/
theorem getElem?_compactPins (links : Shelf) (i : Nat) :
    (compactPins links)[i]? = links[i]?.map fun l =>
      { l with pinnedOrder := if l.pinned then some ((pinnedPlaces links).idxOf i : Int) else none } := by
  unfold compactPins
  rw [List.getElem?_map, Sequence.getElem?_renumber]
  cases hl : links[i]? with
  | none => rfl
  | some l =>
    have hmem : i ∈ pinnedPlaces links ↔ l.pinned := by
      rw [(pinnedPlaces_perm links).mem_iff, Sequence.mem_indices, hl]
      simp
    cases hp : l.pinned <;> simp [hmem, hp, withPinnedOrder, clearUnpinned]

@[simp] theorem length_compactPins (links : Shelf) : (compactPins links).length = links.length := by
  simp [compactPins]

/-- What a rank among the pins leaves alone, counting again leaves alone. -/
theorem map_compactPins {β : Type} {f : Link → β} (hf : ∀ l r, f { l with pinnedOrder := r } = f l)
    (links : Shelf) : (compactPins links).map f = links.map f := by
  refine List.ext_getElem? fun i => ?_
  rw [List.getElem?_map, List.getElem?_map, getElem?_compactPins, Option.map_map]
  exact Option.map_congr fun l _ => hf l _

/-- Counting again counts any shelf. -/
theorem compactPins_counted (links : Shelf) : Counted (compactPins links) where
  ranks := by
    have hpinned : pinnedCount (compactPins links) = pinnedCount links := by
      rw [pinnedCount_eq_countP, map_compactPins (fun _ _ => rfl), ← pinnedCount_eq_countP]
    -- clearing the ranks of the other links does not touch those of the pins
    have hclear : ∀ xs : Shelf, ((xs.map clearUnpinned).filter (·.pinned)).map (·.pinnedOrder) =
        (xs.filter (·.pinned)).map (·.pinnedOrder) := by
      intro xs
      have hpin : ((·.pinned) ∘ clearUnpinned : Link → Bool) = (·.pinned) := by
        funext l
        cases hl : l.pinned <;> simp [clearUnpinned, hl]
      rw [List.filter_map, hpin, List.map_map]
      refine List.map_congr_left fun l hl => ?_
      have hp : l.pinned = true := (List.mem_filter.mp hl).2
      simp [clearUnpinned, hp]
    rw [hpinned, compactPins, hclear]
    have hcounts : ∀ k l, (withPinnedOrder k l).pinned = l.pinned := fun _ _ => rfl
    have hread : ∀ k l, (withPinnedOrder k l).pinnedOrder = some (k : Int) := fun _ _ => rfl
    exact Sequence.ranks_renumber_perm hcounts hread (pinnedPlaces_perm links)
  unranked l hl hp := by
    obtain ⟨i, hi⟩ := List.getElem?_of_mem hl
    rw [getElem?_compactPins] at hi
    obtain ⟨m, hm, rfl⟩ := Option.map_eq_some_iff.mp hi
    dsimp only at hp ⊢
    rw [hp]
    rfl

/-- The ranks of the pins of a counted shelf, from the first on. -/
theorem Counted.pinRank_ranked (h : Counted links) :
    (Sequence.ranked (·.pinned) pinRank links).map (fun p => pinRank p.1) =
      (List.range (pinnedCount links)).map fun k : Nat => (k : Int) := by
  have hr := h.ranks.map fun r => r.getD maxRank
  rw [List.map_map, List.map_map] at hr
  exact Sequence.map_rank_ranked hr

/-- **Counting a counted shelf again changes nothing.** -/
theorem Counted.compactPins_eq (h : Counted links) : compactPins links = links := by
  refine List.ext_getElem? fun i => ?_
  rw [getElem?_compactPins]
  cases hl : links[i]? with
  | none => rfl
  | some l =>
    have hmem := List.mem_of_getElem? hl
    rw [Option.map_some]
    cases hp : l.pinned with
    | false =>
      have := h.unranked l hmem hp
      cases l
      simp_all
    | true =>
      -- The link is the `k`-th ranked one, and the `k`-th rank is `k`.
      obtain ⟨k, hk, hki⟩ := Sequence.exists_getElem_ranked pinRank hl hp
      have hidx : (pinnedPlaces links).idxOf i = k := by
        have := Sequence.idxOf_places hk
        rwa [hki] at this
      have hrank : pinRank l = k := by
        have hlen : k < ((Sequence.ranked (·.pinned) pinRank links).map fun p => pinRank p.1).length := by
          simpa using hk
        have := List.getElem_of_eq h.pinRank_ranked hlen
        simpa [hki] using this
      obtain ⟨r, -, hr⟩ := h.rank_lt hmem hp
      have hrk : (r : Int) = k := by rw [← hrank, pinRank, hr]; rfl
      rw [hidx, if_pos rfl, ← hrk, ← hr, ← hp]

/-- Counting again keeps the order of a shelf whose pins all have a rank. -/
theorem compactPins_shown (h : Shown links) (hr : ∀ l ∈ links, l.pinned → l.pinnedOrder.isSome) :
    Shown (compactPins links) := by
  refine List.pairwise_iff_getElem.mpr fun i j hi hj hij => ?_
  have hi' : i < links.length := by simpa using hi
  have hj' : j < links.length := by simpa using hj
  have ei := getElem?_compactPins links i
  have ej := getElem?_compactPins links j
  rw [List.getElem?_eq_getElem hi, List.getElem?_eq_getElem hi', Option.map_some,
    Option.some.injEq] at ei
  rw [List.getElem?_eq_getElem hj, List.getElem?_eq_getElem hj', Option.map_some,
    Option.some.injEq] at ej
  have hle : links[i].le links[j] := List.pairwise_iff_getElem.mp h i j hi' hj' hij
  rw [Link.le_iff] at hle
  rw [ei, ej, Link.le_iff]
  rcases hle with hle | ⟨hpin, hrank⟩
  · exact Or.inl hle
  · -- of two pins the one with the smaller rank, or the earlier one, has the smaller new rank
    refine Or.inr ⟨hpin, ?_⟩
    cases hp : links[i].pinned with
    | false =>
      rw [hp] at hpin
      simpa [Link.shownRank, Link.orderKey, hp, ← hpin] using hrank
    | true =>
      have hp' : links[j].pinned = true := hpin ▸ hp
      obtain ⟨r, hri⟩ := Option.isSome_iff_exists.mp (hr _ (List.getElem_mem hi') hp)
      obtain ⟨s, hsj⟩ := Option.isSome_iff_exists.mp (hr _ (List.getElem_mem hj') hp')
      have hrs : r ≤ s := by simpa [Link.shownRank, hp, hp', hri, hsj] using hrank
      have hlt : (pinnedPlaces links).idxOf i < (pinnedPlaces links).idxOf j := by
        refine (Sequence.idxOf_places_lt_iff (List.getElem?_eq_getElem hi') hp
          (List.getElem?_eq_getElem hj') hp').mpr ?_
        unfold Sequence.RanksBefore pinRank
        dsimp only
        rw [hri, hsj]
        simp only [Option.getD_some]
        omega
      simp only [Link.shownRank, hp', if_true, Option.getD_some]
      omega

end Bookmarks.Shelf
