import Bookmarks.Proofs.Shelf.Pins
import Bookmarks.Shelf.Edit

/-! # What the operations on a shelf keep

A shelf is *arranged* when it is counted and in order.  Every operation keeps it
so, each for a reason of its own: pinning and reordering count and sort again; a
new pin goes exactly between the pins and the rest; taking a link out leaves a
shelf in order, which counting keeps in order; and an edit that leaves the standing
of a link alone leaves the shelf alone.

Besides, the operations only ever change a link by giving it ranks and by pinning
or unpinning it.  A property of links that does not care about that (`RankFree`)
holds of every link afterwards if it held of every link before.
-/
namespace Bookmarks.Shelf

/-- A shelf whose pins are counted and whose links stand as they are shown. -/
structure Arranged (links : Shelf) : Prop where
  counted : Counted links
  shown : Shown links

variable {links next : Shelf} {l : Link} {id : String}

/-- Counting and sorting arranges any shelf. -/
theorem sort_compactPins_arranged (links : Shelf) : Arranged (sort (compactPins links)) where
  counted := (compactPins_counted links).of_perm (sort_perm _).symm
  shown := sort_shown _

/-- **Arranging an arranged shelf changes nothing.** -/
theorem Arranged.sort_compactPins_eq (h : Arranged links) : sort (compactPins links) = links := by
  rw [h.counted.compactPins_eq, h.shown.sort_eq]

/-- A change that leaves the standing of every link alone keeps a shelf arranged. -/
theorem Arranged.of_place_eq (h : Arranged links) (hpin : links.map pinState = next.map pinState)
    (hkey : links.map Link.orderKey = next.map Link.orderKey) : Arranged next where
  counted := h.counted.of_pinState_eq hpin
  shown := by
    have hstanding : ∀ xs : Shelf, xs.map Link.standing =
        List.zipWith (fun s k => (s.1, if s.1 then s.2.getD 0 else k)) (xs.map pinState) (xs.map Link.orderKey) := by
      intro xs
      rw [List.zipWith_map, List.zipWith_self]
      rfl
    refine h.shown.of_standing_eq ?_
    rw [hstanding, hstanding, hpin, hkey]

/-! ## Pinning and unpinning -/

theorem togglePin?_arranged (h : togglePin? links id = some next) : Arranged next := by
  obtain ⟨flipped, -, rfl⟩ := Option.map_eq_some_iff.mp h
  exact sort_compactPins_arranged flipped

/-! ## Putting in and taking out -/

/-- A new link with the ranks it is put in with. -/
def inserted (links : Shelf) (l : Link) : Link :=
  { l with
    order := some (freeOrder links l.categoryId)
    pinnedOrder := if l.pinned then some (pinnedCount links : Int) else none }

theorem insert_of_pinned (links : Shelf) (hp : l.pinned = true) :
    insert links l = links.takeWhile (·.pinned) ++ inserted links l :: links.dropWhile (·.pinned) := by
  simp [insert, inserted, withPinnedOrder, hp]

theorem insert_of_unpinned (links : Shelf) (hp : l.pinned = false) :
    insert links l = sort (links ++ [inserted links l]) := by
  simp [insert, inserted, hp]

theorem insert_perm (links : Shelf) (l : Link) : (insert links l).Perm (inserted links l :: links) := by
  cases hp : l.pinned with
  | true =>
    rw [insert_of_pinned links hp]
    refine List.perm_middle.trans (List.Perm.cons _ ?_)
    rw [List.takeWhile_append_dropWhile]
  | false =>
    rw [insert_of_unpinned links hp]
    exact (sort_perm _).trans (List.perm_append_singleton _ _)

/-- A link that comes in with the next rank if it is pinned, and else without any,
keeps the pins counted. -/
theorem Counted.cons (h : Counted links)
    (hl : l.pinnedOrder = if l.pinned then some (pinnedCount links : Int) else none) : Counted (l :: links) := by
  cases hp : l.pinned with
  | false =>
    rw [hp, if_neg (by simp)] at hl
    constructor
    · simpa [pinnedCount, hp] using h.ranks
    · intro m hm hmp
      rcases List.mem_cons.mp hm with rfl | hm
      · exact hl
      · exact h.unranked m hm hmp
  | true =>
    rw [hp, if_pos rfl] at hl
    have hcount : pinnedCount (l :: links) = pinnedCount links + 1 := List.countP_cons_of_pos hp
    constructor
    · rw [hcount, List.range_succ, List.map_append, List.filter_cons_of_pos hp, List.map_cons, hl]
      exact (h.ranks.cons _).trans (List.perm_append_singleton _ _).symm
    · intro m hm hmp
      rcases List.mem_cons.mp hm with rfl | hm
      · rw [hp] at hmp; cases hmp
      · exact h.unranked m hm hmp

/-- Without an unpinned link the pins stay counted. -/
theorem Counted.of_cons_unpinned (h : Counted (l :: links)) (hp : l.pinned = false) : Counted links where
  ranks := by simpa [pinnedCount, hp] using h.ranks
  unranked m hm := h.unranked m (List.mem_cons_of_mem _ hm)

/-- A new pin ranks after the other pins and before everything else. -/
theorem insert_shown (h : Arranged links) (l : Link) : Shown (insert links l) := by
  cases hp : l.pinned with
  | false =>
    rw [insert_of_unpinned links hp]
    exact sort_shown _
  | true =>
    rw [insert_of_pinned links hp, h.shown.takeWhile_pinned, h.shown.dropWhile_pinned]
    have hin : (inserted links l).pinned = true := hp
    refine List.pairwise_append.mpr ⟨h.shown.filter _, List.pairwise_cons.mpr ⟨?_, h.shown.filter _⟩, ?_⟩
    · -- the new pin stands before every link that is not pinned
      intro m hm
      have hm' : m.pinned = false := by simpa using (List.mem_filter.mp hm).2
      exact (Link.le_iff _ _).mpr (Or.inl ⟨hin, hm'⟩)
    · -- the other pins stand before the new one, whose rank is their number
      intro a ha b hb
      obtain ⟨hal, hap⟩ := List.mem_filter.mp ha
      have hap : a.pinned = true := hap
      rcases List.mem_cons.mp hb with rfl | hb
      · obtain ⟨k, hk, hrank⟩ := h.counted.rank_lt hal hap
        refine (Link.le_iff _ _).mpr (Or.inr ⟨hap.trans hin.symm, ?_⟩)
        have hr : (inserted links l).pinnedOrder = some (pinnedCount links : Int) := if_pos hp
        simp only [Link.shownRank, hap, hin, hrank, hr, if_true, Option.getD_some]
        omega
      · have hb' : b.pinned = false := by simpa using (List.mem_filter.mp hb).2
        exact (Link.le_iff _ _).mpr (Or.inl ⟨hap, hb'⟩)

theorem insert_arranged (h : Arranged links) (l : Link) : Arranged (insert links l) where
  counted := (h.counted.cons rfl).of_perm (insert_perm links l).symm
  shown := insert_shown h l

theorem remove?_arranged (h : Arranged links) (hr : remove? links id = some next) : Arranged next := by
  obtain ⟨l, hl, rfl⟩ := Option.map_eq_some_iff.mp hr
  have hperm := Sequence.find?_cons_eraseP_perm hl
  have hshown : Shown (links.eraseP (·.id == id)) := List.Pairwise.sublist List.eraseP_sublist h.shown
  dsimp only
  split
  · -- the remaining pins have the ranks they had, so counting them keeps their order
    refine ⟨compactPins_counted _, compactPins_shown hshown fun m hm hmp => ?_⟩
    obtain ⟨k, -, hk⟩ := h.counted.rank_lt (List.mem_of_mem_eraseP hm) hmp
    rw [hk]
    rfl
  · rename_i hp
    exact ⟨(h.counted.of_perm hperm).of_cons_unpinned (by simpa using hp), hshown⟩

/-! ## Putting in another order -/

theorem shownIn_perm (scope : Scope) (links : Shelf) :
    ((shownIn scope links).map (·.2)).Perm (Sequence.indices scope.contains links) :=
  Sequence.places_perm _ _ _

/-- What becomes of a shelf that is put in another order: its scope is counted anew,
in some order of its places. -/
theorem reorder_eq (links : Shelf) (activeId overId : String) (scope : Scope) :
    reorder links activeId overId scope = links ∨
      ∃ places : List Nat, places.Perm (Sequence.indices scope.contains links) ∧
        reorder links activeId overId scope = sort (Sequence.renumber scope.withRank places links) := by
  unfold reorder
  split
  · exact Or.inl rfl
  · dsimp only
    split
    · exact Or.inr ⟨_, (Sequence.move_perm _ _ _).trans (shownIn_perm scope links), rfl⟩
    · exact Or.inl rfl

theorem renumber_counted (h : Counted links) {scope : Scope} {places : List Nat}
    (hp : places.Perm (Sequence.indices scope.contains links)) :
    Counted (Sequence.renumber scope.withRank places links) := by
  cases scope with
  | category c =>
    have hkeep : ∀ k l, pinState (Scope.withRank (.category c) k l) = pinState l := fun _ _ => rfl
    exact h.of_pinState_eq (Sequence.map_renumber hkeep places links).symm
  | allUnpinned =>
    have hkeep : ∀ k l, pinState (Scope.withRank .allUnpinned k l) = pinState l := fun _ _ => rfl
    exact h.of_pinState_eq (Sequence.map_renumber hkeep places links).symm
  | pinned =>
    have hkeep : ∀ k l, (Scope.withRank .pinned k l).pinned = l.pinned := fun _ _ => rfl
    have hpinned := Sequence.map_renumber hkeep places links
    constructor
    · rw [pinnedCount_eq_countP, hpinned, ← pinnedCount_eq_countP]
      have hcounts : ∀ k l, (Scope.withRank .pinned k l).pinned = l.pinned := fun _ _ => rfl
      have hread : ∀ k l, (Scope.withRank .pinned k l).pinnedOrder = some (k : Int) := fun _ _ => rfl
      exact Sequence.ranks_renumber_perm hcounts hread hp
    · intro m hm hmp
      obtain ⟨i, hi⟩ := List.getElem?_of_mem hm
      rw [Sequence.getElem?_renumber] at hi
      obtain ⟨l, hl, rfl⟩ := Option.map_eq_some_iff.mp hi
      -- A place of the scope is that of a pinned link, so this one is none.
      have hplace : i ∉ places := by
        intro hmem
        obtain ⟨l', hl', hpin⟩ := Sequence.mem_indices.mp (hp.mem_iff.mp hmem)
        rw [hl, Option.some.injEq] at hl'
        subst hl'
        rw [if_pos hmem] at hmp
        exact Bool.false_ne_true (hmp.symm.trans hpin)
      rw [if_neg hplace] at hmp ⊢
      exact h.unranked l (List.mem_of_getElem? hl) hmp

theorem reorder_arranged (h : Arranged links) (activeId overId : String) (scope : Scope) :
    Arranged (reorder links activeId overId scope) := by
  rcases reorder_eq links activeId overId scope with heq | ⟨places, hp, heq⟩
  · rw [heq]
    exact h
  · rw [heq]
    exact ⟨(renumber_counted h.counted hp).of_perm (sort_perm _).symm, sort_shown _⟩

/-! ## Editing one link -/

/-- An edit that leaves the standing of a link alone. -/
def KeepsPlace (edit : Link → Except InvalidLink Link) : Prop :=
  ∀ l m, edit l = .ok m → pinState m = pinState l ∧ m.orderKey = l.orderKey

/-- What an update comes to: one link is edited, and perhaps pinned or unpinned
afterwards. -/
theorem update_eq_ok {u : Update} {edit : Link → Except InvalidLink Link} (h : update links u edit = .ok next) :
    ∃ l edited changed, links.find? (·.id == u.id) = some l ∧ edit l = .ok edited ∧
      Sequence.modifyFirst? (·.id == u.id) (fun _ => edited) links = some changed ∧
      (next = changed ∨ togglePin? changed u.id = some next) := by
  unfold update at h
  split at h
  · cases h
  · rename_i l hl
    split at h
    · cases h
    · rename_i edited hedit
      obtain ⟨changed, hchanged⟩ : ∃ changed,
          Sequence.modifyFirst? (·.id == u.id) (fun _ => edited) links = some changed := by
        refine Option.isSome_iff_exists.mp ?_
        rw [Sequence.modifyFirst?_isSome, ← List.isSome_find?, hl]
        rfl
      refine ⟨l, edited, changed, hl, hedit, hchanged, ?_⟩
      rw [hchanged] at h
      dsimp only [Option.getD_some] at h
      split at h
      · cases ht : togglePin? changed u.id with
        | none => rw [ht] at h; exact Or.inl (Except.ok.inj h).symm
        | some toggled => rw [ht] at h; exact Or.inr (congrArg some (Except.ok.inj h))
      · exact Or.inl (Except.ok.inj h).symm

theorem update_arranged (h : Arranged links) {u : Update} {edit : Link → Except InvalidLink Link}
    (hedit : KeepsPlace edit) (hu : update links u edit = .ok next) : Arranged next := by
  obtain ⟨l, edited, changed, hl, he, hchanged, rfl | htoggled⟩ := update_eq_ok hu
  · obtain ⟨hpin, hkey⟩ := hedit l edited he
    exact h.of_place_eq (Sequence.map_modifyFirst? hchanged hl hpin).symm
      (Sequence.map_modifyFirst? hchanged hl hkey).symm
  · exact togglePin?_arranged htoggled

theorem add_eq_ok {draft : Draft} {now : Int} {categoryId : String}
    (h : add links draft id now categoryId = .ok next) :
    ∃ l, draft.toLink id now categoryId = .ok l ∧ next = insert links l := by
  unfold add at h
  split at h
  · rename_i l hl
    exact ⟨l, hl, (Except.ok.inj h).symm⟩
  · cases h

theorem delete_eq_ok (h : delete links id = .ok next) : remove? links id = some next := by
  unfold delete at h
  split at h
  · rename_i hr
    rw [hr, Except.ok.inj h]
  · cases h

theorem togglePin_eq_ok (h : togglePin links id = .ok next) : togglePin? links id = some next := by
  unfold togglePin at h
  split at h
  · rename_i ht
    rw [ht, Except.ok.inj h]
  · cases h

/-! ## What no operation touches -/

/-- A property of links that does not mind ranks up to a bound, nor the state of
being pinned. -/
structure RankFree (bound : Nat) (P : Link → Prop) : Prop where
  order : ∀ l (k : Nat), k ≤ bound → P l → P { l with order := some (k : Int) }
  pin : ∀ l pinned (r : Option Int), (∀ k ∈ r, ∃ m : Nat, m ≤ bound ∧ k = m) → P l →
    P { l with pinned := pinned, pinnedOrder := r }

namespace RankFree
variable {bound : Nat} {P : Link → Prop}

theorem pinnedOrder (hP : RankFree bound P) {k : Nat} (hk : k ≤ bound) (h : P l) :
    P { l with pinnedOrder := some (k : Int) } := by
  refine hP.pin l l.pinned _ ?_ h
  rintro _ ⟨⟩
  exact ⟨k, hk, rfl⟩

theorem unpinned (hP : RankFree bound P) {pinned : Bool} (h : P l) :
    P { l with pinned := pinned, pinnedOrder := none } :=
  hP.pin l pinned none nofun h

theorem compactPins (hP : RankFree bound P) (hb : links.length ≤ bound) (h : ∀ l ∈ links, P l) :
    ∀ l ∈ compactPins links, P l := by
  intro m hm
  obtain ⟨i, hi⟩ := List.getElem?_of_mem hm
  rw [getElem?_compactPins] at hi
  obtain ⟨l, hl, rfl⟩ := Option.map_eq_some_iff.mp hi
  have hPl := h l (List.mem_of_getElem? hl)
  split
  · refine hP.pinnedOrder ?_ hPl
    have hlen := (pinnedPlaces_perm links).length_eq
    rw [Sequence.length_indices] at hlen
    have hidx : (pinnedPlaces links).idxOf i ≤ (pinnedPlaces links).length := List.idxOf_le_length
    have hcount := pinnedCount_le_length links
    unfold pinnedCount at hcount
    omega
  · exact hP.unpinned hPl

theorem sort (h : ∀ l ∈ links, P l) : ∀ l ∈ sort links, P l :=
  fun l hl => h l ((sort_perm links).mem_iff.mp hl)

theorem togglePin? (hP : RankFree bound P) (hb : links.length ≤ bound) (h : ∀ l ∈ links, P l)
    (ht : togglePin? links id = some next) : ∀ l ∈ next, P l := by
  obtain ⟨flipped, hf, rfl⟩ := Option.map_eq_some_iff.mp ht
  have hlen := Sequence.length_modifyFirst? hf
  refine sort (hP.compactPins (by omega) fun m hm => ?_)
  obtain ⟨l, hl⟩ := Sequence.find?_of_modifyFirst? hf
  rcases Sequence.mem_modifyFirst? hf hl hm with hm | rfl
  · exact h m hm
  · have hPl := h l (List.mem_of_find?_eq_some hl)
    unfold flipPin
    split
    · exact hP.unpinned hPl
    · refine hP.pin l true _ ?_ hPl
      rintro _ ⟨⟩
      exact ⟨_, Nat.le_trans (pinnedCount_le_length links) hb, rfl⟩

theorem remove? (hP : RankFree bound P) (hb : links.length ≤ bound) (h : ∀ l ∈ links, P l)
    (hr : remove? links id = some next) : ∀ l ∈ next, P l := by
  obtain ⟨l, -, rfl⟩ := Option.map_eq_some_iff.mp hr
  have hrest : ∀ m ∈ links.eraseP (·.id == id), P m := fun m hm => h m (List.mem_of_mem_eraseP hm)
  have hlen : (links.eraseP (·.id == id)).length ≤ links.length := List.length_eraseP_le
  dsimp only
  split
  · exact hP.compactPins (by omega) hrest
  · exact hrest

theorem insert (h : ∀ l ∈ links, P l) (hl : P (inserted links l)) : ∀ m ∈ insert links l, P m := by
  intro m hm
  rcases List.mem_cons.mp ((insert_perm links l).mem_iff.mp hm) with rfl | hm
  · exact hl
  · exact h m hm

theorem reorder (hP : RankFree bound P) (hb : links.length ≤ bound) (h : ∀ l ∈ links, P l)
    (activeId overId : String) (scope : Scope) : ∀ l ∈ reorder links activeId overId scope, P l := by
  rcases reorder_eq links activeId overId scope with heq | ⟨places, hp, heq⟩
  · rw [heq]
    exact h
  · rw [heq]
    refine sort fun m hm => ?_
    obtain ⟨l, hl, rfl | ⟨k, hk, rfl⟩⟩ := Sequence.mem_renumber hm
    · exact h m hl
    · have hlen := hp.length_eq
      rw [Sequence.length_indices] at hlen
      have hcount : links.countP scope.contains ≤ links.length := List.countP_le_length
      have hk' : k ≤ bound := by omega
      cases scope with
      | category c => exact hP.order l k hk' (h l hl)
      | allUnpinned => exact hP.order l k hk' (h l hl)
      | pinned => exact hP.pinnedOrder hk' (h l hl)

theorem update (hP : RankFree bound P) (hb : links.length ≤ bound) (h : ∀ l ∈ links, P l) {u : Update}
    {edit : Link → Except InvalidLink Link} (hedit : ∀ l m, P l → edit l = .ok m → P m)
    (hu : update links u edit = .ok next) : ∀ l ∈ next, P l := by
  obtain ⟨l, edited, changed, hl, he, hchanged, hnext⟩ := update_eq_ok hu
  have hP' : ∀ m ∈ changed, P m := by
    intro m hm
    rcases Sequence.mem_modifyFirst? hchanged hl hm with hm | rfl
    · exact h m hm
    · exact hedit l _ (h l (List.mem_of_find?_eq_some hl)) he
  rcases hnext with rfl | htoggled
  · exact hP'
  · have hlen := Sequence.length_modifyFirst? hchanged
    exact hP.togglePin? (by omega) hP' htoggled

end RankFree

end Bookmarks.Shelf
