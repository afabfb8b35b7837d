import Bookmarks.Proofs.Shelf.Operations

/-! # Operations made twice

An operation on a shelf that is made again where it has just been made hardly ever leaves
the shelf alone.  Putting in and taking out change the number of links, pinning and
unpinning the number of pins.

Reordering keeps both.  It leaves its scope *numbered*, with the ranks `0, 1, …, n - 1`,
and in a numbered scope the rank of a link tells which one it is: the rank of the link
that another one is moved to goes to that other one.  So **moving a link to the place of
another changes every numbered shelf** (`Numbered.reorder_ne`).
-/
namespace Bookmarks

namespace Scope
variable (scope : Scope) (k : Nat) (l : Link)

theorem contains_withRank : scope.contains (scope.withRank k l) = scope.contains l := by
  cases scope <;> rfl

theorem rank_withRank : scope.rank (scope.withRank k l) = k := by
  cases scope <;> rfl

theorem id_withRank : (scope.withRank k l).id = l.id := by
  cases scope <;> rfl

end Scope

namespace Shelf

variable {links next : Shelf} {id activeId overId : String} {scope : Scope}

theorem id_of_find? {l : Link} (h : links.find? (·.id == id) = some l) : l.id = id := by
  simpa using List.find?_some h

/-! ## Ids -/

theorem ids_compactPins (links : Shelf) : (compactPins links).map (·.id) = links.map (·.id) :=
  map_compactPins (fun _ _ => rfl) links

theorem ids_togglePin? (h : togglePin? links id = some next) : (next.map (·.id)).Perm (links.map (·.id)) := by
  obtain ⟨flipped, hflipped, rfl⟩ := Option.map_eq_some_iff.mp h
  obtain ⟨l, hl⟩ := Sequence.find?_of_modifyFirst? hflipped
  have hflip : (flipPin (pinnedCount links) l).id = l.id := by
    unfold flipPin
    split <;> rfl
  have hids : flipped.map (·.id) = links.map (·.id) := Sequence.map_modifyFirst? hflipped hl hflip
  rw [← hids, ← ids_compactPins flipped]
  exact (sort_perm _).map _

theorem ids_reorder (links : Shelf) (activeId overId : String) (scope : Scope) :
    ((reorder links activeId overId scope).map (·.id)).Perm (links.map (·.id)) := by
  rcases reorder_eq links activeId overId scope with heq | ⟨places, -, heq⟩
  · rw [heq]
  · have hids : (Sequence.renumber scope.withRank places links).map (·.id) = links.map (·.id) :=
      Sequence.map_renumber scope.id_withRank places links
    rw [heq, ← hids]
    exact (sort_perm _).map _

theorem ids_update {u : Update} {edit : Link → Except InvalidLink Link} (hid : ∀ l m, edit l = .ok m → m.id = l.id)
    (hu : update links u edit = .ok next) : (next.map (·.id)).Perm (links.map (·.id)) := by
  obtain ⟨l, edited, changed, hl, he, hchanged, hnext⟩ := update_eq_ok hu
  have hids : changed.map (·.id) = links.map (·.id) := Sequence.map_modifyFirst? hchanged hl (hid l edited he)
  rw [← hids]
  rcases hnext with rfl | htoggled
  · exact List.Perm.refl _
  · exact ids_togglePin? htoggled

theorem ids_remove? (h : remove? links id = some next) : (next.map (·.id)).Sublist (links.map (·.id)) := by
  obtain ⟨l, -, rfl⟩ := Option.map_eq_some_iff.mp h
  dsimp only
  split
  · rw [ids_compactPins]
    exact List.eraseP_sublist.map _
  · exact List.eraseP_sublist.map _

/-! ## Numbers of links and of pins -/

theorem length_insert (links : Shelf) (l : Link) : (insert links l).length = links.length + 1 :=
  (insert_perm links l).length_eq

theorem length_remove? (h : remove? links id = some next) : next.length + 1 = links.length := by
  obtain ⟨l, hl, rfl⟩ := Option.map_eq_some_iff.mp h
  have hlen := (Sequence.find?_cons_eraseP_perm hl).length_eq
  rw [List.length_cons] at hlen
  dsimp only
  split
  · rw [length_compactPins, hlen]
  · exact hlen.symm

theorem pinnedCount_sort_compactPins (links : Shelf) : pinnedCount (sort (compactPins links)) = pinnedCount links := by
  have hsort : pinnedCount (sort (compactPins links)) = pinnedCount (compactPins links) :=
    (sort_perm (compactPins links)).countP_eq _
  rw [hsort, pinnedCount_eq_countP, map_compactPins (fun _ _ => rfl), ← pinnedCount_eq_countP]

/-- Pinning adds a pin, unpinning takes one away. -/
theorem pinnedCount_togglePin?_ne (h : togglePin? links id = some next) : pinnedCount next ≠ pinnedCount links := by
  obtain ⟨flipped, hflipped, rfl⟩ := Option.map_eq_some_iff.mp h
  rw [pinnedCount_sort_compactPins]
  refine Sequence.countP_modifyFirst?_ne hflipped fun l => ?_
  unfold flipPin
  cases hp : l.pinned <;> rfl

/-! ## Reordering -/

/-- The links of the scope have the ranks `0, 1, …, n - 1`, each once. -/
def Numbered (scope : Scope) (links : Shelf) : Prop :=
  ((links.filter scope.contains).map scope.rank).Perm
    ((List.range (links.countP scope.contains)).map fun k : Nat => (k : Int))

/-- A link with this id belongs to the scope. -/
def Offers (scope : Scope) (links : Shelf) (id : String) : Prop :=
  ∃ l ∈ links, scope.contains l = true ∧ l.id = id

theorem Numbered.of_perm (h : Numbered scope links) (hp : links.Perm next) : Numbered scope next := by
  unfold Numbered at h ⊢
  rw [← hp.countP_eq]
  exact ((hp.filter _).map _).symm.trans h

theorem numbered_renumber {places : List Nat} (h : places.Perm (Sequence.indices scope.contains links)) :
    Numbered scope (Sequence.renumber scope.withRank places links) := by
  have hcount : (Sequence.renumber scope.withRank places links).countP scope.contains = links.countP scope.contains := by
    have hmap : (Sequence.renumber scope.withRank places links).map scope.contains = links.map scope.contains :=
      Sequence.map_renumber scope.contains_withRank places links
    have hid := congrArg (List.countP id) hmap
    rwa [List.countP_map, List.countP_map] at hid
  unfold Numbered
  rw [hcount]
  exact Sequence.ranks_renumber_perm scope.contains_withRank scope.rank_withRank h

theorem Offers.of_perm (h : Offers scope links id) (hp : links.Perm next) : Offers scope next id := by
  obtain ⟨l, hl, hin⟩ := h
  exact ⟨l, hp.mem_iff.mp hl, hin⟩

theorem Offers.renumber (h : Offers scope links id) (places : List Nat) :
    Offers scope (Sequence.renumber scope.withRank places links) id := by
  obtain ⟨l, hl, hin, hid⟩ := h
  obtain ⟨i, hi⟩ := List.getElem?_of_mem hl
  have hget := Sequence.getElem?_renumber scope.withRank places links i
  rw [hi, Option.map_some] at hget
  refine ⟨_, List.mem_of_getElem? hget, ?_, ?_⟩
  · split
    · rw [scope.contains_withRank, hin]
    · exact hin
  · split
    · rw [scope.id_withRank, hid]
    · exact hid

/-- A scope shows a link with an id exactly if it has one. -/
theorem offers_of_findIdx? {i : Nat} (h : (shownIn scope links).findIdx? (·.1.id == id) = some i) :
    Offers scope links id := by
  obtain ⟨hi, hid, -⟩ := List.findIdx?_eq_some_iff_getElem.mp h
  obtain ⟨hget, hin⟩ := Sequence.mem_ranked.mp (List.getElem_mem hi)
  exact ⟨_, List.mem_of_getElem? hget, hin, by simpa using hid⟩

theorem Offers.exists_findIdx? (h : Offers scope links id) :
    ∃ i, (shownIn scope links).findIdx? (·.1.id == id) = some i := by
  obtain ⟨l, hl, hin, hid⟩ := h
  obtain ⟨i, hi⟩ := List.getElem?_of_mem hl
  have hmem : (l, i) ∈ shownIn scope links := Sequence.mem_ranked.mpr ⟨hi, hin⟩
  refine Option.isSome_iff_exists.mp ?_
  rw [List.findIdx?_isSome, List.any_eq_true]
  exact ⟨(l, i), hmem, by simpa using hid⟩

/-- What it takes for a shelf to be put in another order, and what it comes to. -/
theorem reorder_of_ne (h : reorder links activeId overId scope ≠ links) :
    activeId ≠ overId ∧ Offers scope links activeId ∧ Offers scope links overId ∧
      ∃ places : List Nat, places.Perm (Sequence.indices scope.contains links) ∧
        reorder links activeId overId scope = sort (Sequence.renumber scope.withRank places links) := by
  unfold reorder at h ⊢
  split at h
  · exact absurd rfl h
  · next hne =>
    rw [if_neg hne]
    dsimp only at h ⊢
    split at h
    · next source target hs ht =>
      exact ⟨hne, offers_of_findIdx? hs, offers_of_findIdx? ht, _,
        (Sequence.move_perm _ _ _).trans (shownIn_perm scope links), rfl⟩
    · exact absurd rfl h

/-- Where both links are in the scope, the one stands at the rank of the other afterwards. -/
theorem exists_mem_reorder (hne : activeId ≠ overId) (hactive : Offers scope links activeId)
    (hover : Offers scope links overId) :
    ∃ (target : Nat) (htarget : target < (shownIn scope links).length) (l : Link),
      (shownIn scope links)[target].1.id = overId ∧ l.id = activeId ∧ scope.contains l = true ∧
        scope.withRank target l ∈ reorder links activeId overId scope := by
  obtain ⟨source, hs⟩ := hactive.exists_findIdx?
  obtain ⟨target, ht⟩ := hover.exists_findIdx?
  obtain ⟨hsource, hsid, -⟩ := List.findIdx?_eq_some_iff_getElem.mp hs
  obtain ⟨htarget, htid, -⟩ := List.findIdx?_eq_some_iff_getElem.mp ht
  obtain ⟨hget, hin⟩ := Sequence.mem_ranked.mp (List.getElem_mem hsource)
  refine ⟨target, htarget, (shownIn scope links)[source].1, by simpa using htid, by simpa using hsid, hin, ?_⟩
  let places := Sequence.move source target ((shownIn scope links).map (·.2))
  have heq : reorder links activeId overId scope = sort (Sequence.renumber scope.withRank places links) := by
    unfold reorder
    rw [if_neg hne]
    simp only [hs, ht]
    rfl
  -- the index of the link that is moved is the one at the target
  have hplace : places[target]? = some (shownIn scope links)[source].2 := by
    have hmoved : places[target]? = ((shownIn scope links).map (·.2))[source]? :=
      Sequence.getElem?_move (by simpa using hsource) (by simpa using htarget)
    rw [hmoved, List.getElem?_map, List.getElem?_eq_getElem hsource]
    rfl
  obtain ⟨hlen, hat⟩ := List.getElem?_eq_some_iff.mp hplace
  have hnodup : places.Nodup :=
    Sequence.nodup_of_perm_indices ((Sequence.move_perm _ _ _).trans (shownIn_perm scope links))
  have hidx : places.idxOf (shownIn scope links)[source].2 = target := by
    rw [← hat]
    exact hnodup.idxOf_getElem target hlen
  have hrenumbered := Sequence.getElem?_renumber scope.withRank places links (shownIn scope links)[source].2
  rw [hget, Option.map_some, if_pos (List.mem_of_getElem? hplace), hidx] at hrenumbered
  rw [heq]
  exact (sort_perm _).mem_iff.mpr (List.mem_of_getElem? hrenumbered)

/-- In a numbered scope the rank of a link tells where it is shown. -/
theorem Numbered.getElem_shownIn (h : Numbered scope links) {l : Link} (hl : l ∈ links)
    (hin : scope.contains l = true) {k : Nat} (hk : k < (shownIn scope links).length) (hrank : scope.rank l = k) :
    (shownIn scope links)[k].1 = l := by
  have hranks : (shownIn scope links).map (fun p => scope.rank p.1) =
      (List.range (links.countP scope.contains)).map fun k : Nat => (k : Int) := Sequence.map_rank_ranked h
  have hlen := congrArg List.length hranks
  rw [List.length_map, List.length_map, List.length_range] at hlen
  -- the rank at a place of the list is the number of the place
  have hat : ∀ j (hj : j < (shownIn scope links).length), scope.rank (shownIn scope links)[j].1 = j := by
    intro j hj
    have hget := congrArg (·[j]?) hranks
    rw [List.getElem?_map, List.getElem?_map, List.getElem?_range (hlen ▸ hj), List.getElem?_eq_getElem hj] at hget
    exact Option.some.inj hget
  obtain ⟨i, hi⟩ := List.getElem?_of_mem hl
  obtain ⟨m, hm, heq⟩ := Sequence.exists_getElem_ranked scope.rank hi hin
  have hfst : (shownIn scope links)[m].1 = l := congrArg Prod.fst heq
  have hmk : (m : Int) = k := by rw [← hat m hm, hfst, hrank]
  obtain rfl : m = k := Int.ofNat.inj hmk
  exact hfst

/-- **Moving a link to the place of another changes every numbered shelf.** -/
theorem Numbered.reorder_ne (h : Numbered scope links) (hne : activeId ≠ overId)
    (hactive : Offers scope links activeId) (hover : Offers scope links overId) :
    reorder links activeId overId scope ≠ links := by
  intro heq
  obtain ⟨target, htarget, l, hover, hid, hin, hmem⟩ := exists_mem_reorder hne hactive hover
  rw [heq] at hmem
  have hshown := h.getElem_shownIn hmem ((scope.contains_withRank target l).trans hin) htarget
    (scope.rank_withRank target l)
  rw [hshown, scope.id_withRank, hid] at hover
  exact hne hover

/-- **A shelf that was put in another order is put in yet another one** by the same
move. -/
theorem reorder_reorder_ne (h : reorder links activeId overId scope ≠ links) :
    reorder (reorder links activeId overId scope) activeId overId scope ≠ reorder links activeId overId scope := by
  obtain ⟨hne, hactive, hover, places, hplaces, heq⟩ := reorder_of_ne h
  have hnumbered : Numbered scope (reorder links activeId overId scope) := by
    rw [heq]
    exact (numbered_renumber hplaces).of_perm (sort_perm _).symm
  have hoffers : ∀ id, Offers scope links id → Offers scope (reorder links activeId overId scope) id := by
    intro id hid
    rw [heq]
    exact (hid.renumber places).of_perm (sort_perm _).symm
  exact hnumbered.reorder_ne hne (hoffers _ hactive) (hoffers _ hover)

/-! ## Updating -/

variable {u : Update} {edit : Link → Except InvalidLink Link}

/-- A link that an update has nothing to change about. -/
def AsAsked (u : Update) (edit : Link → Except InvalidLink Link) (l : Link) : Prop :=
  edit l = .ok l ∧ u.changesPin l = false

/-- An edit that can be told apart from a new link: it leaves the id and the place alone,
made again it changes nothing, and it does not look at ranks and pins. -/
structure Settles (edit : Link → Except InvalidLink Link) : Prop where
  id : ∀ l m, edit l = .ok m → m.id = l.id
  place : KeepsPlace edit
  again : ∀ l m, edit l = .ok m → edit m = .ok m
  rankFree : ∀ bound, RankFree bound fun l => edit l = .ok l

theorem Settles.pinned (h : Settles edit) {l m : Link} (he : edit l = .ok m) : m.pinned = l.pinned :=
  congrArg Prod.fst (h.place l m he).1

/-- What an update comes to where it finds a link and the edit is accepted. -/
theorem update_eq {l edited : Link} (hl : links.find? (·.id == u.id) = some l) (he : edit l = .ok edited) :
    ∃ changed, Sequence.modifyFirst? (·.id == u.id) (fun _ => edited) links = some changed ∧
      update links u edit = if u.changesPin l then .ok ((togglePin? changed u.id).getD changed) else .ok changed := by
  unfold update
  simp only [hl, he]
  cases hchanged : Sequence.modifyFirst? (·.id == u.id) (fun _ => edited) links with
  | none =>
    rw [Sequence.modifyFirst?_eq_none_iff.mp hchanged] at hl
    cases hl
  | some changed => exact ⟨changed, rfl, rfl⟩

/-- The link with the id of an update, after the edit. -/
theorem Settles.find?_changed (h : Settles edit) {l edited : Link} {changed : Shelf}
    (hl : links.find? (·.id == u.id) = some l) (he : edit l = .ok edited)
    (hchanged : Sequence.modifyFirst? (·.id == u.id) (fun _ => edited) links = some changed) :
    changed.find? (·.id == u.id) = some edited := by
  refine Sequence.find?_modifyFirst? hchanged hl ?_
  rw [h.id l edited he, id_of_find? hl]
  exact beq_self_eq_true u.id

theorem togglePin?_of_find? {l : Link} (hl : links.find? (·.id == id) = some l) :
    ∃ next, togglePin? links id = some next := by
  unfold togglePin?
  cases hflipped : Sequence.modifyFirst? (·.id == id) (flipPin (pinnedCount links)) links with
  | none =>
    rw [Sequence.modifyFirst?_eq_none_iff.mp hflipped] at hl
    cases hl
  | some flipped => exact ⟨_, rfl⟩

/-- An update changes nothing exactly where the link is as it asks. -/
theorem Settles.update_eq_self_iff (h : Settles edit) {l : Link} (hl : links.find? (·.id == u.id) = some l) :
    update links u edit = .ok links ↔ AsAsked u edit l := by
  constructor
  · intro hu
    obtain ⟨l', edited, -, hl', he, -⟩ := update_eq_ok hu
    obtain rfl : l' = l := Option.some.inj (hl'.symm.trans hl)
    obtain ⟨changed, hchanged, heq⟩ := update_eq hl he
    have hfound := h.find?_changed hl he hchanged
    rw [hu] at heq
    cases hpin : u.changesPin l' with
    | true =>
      -- the number of pins tells the shelf from the one before
      obtain ⟨toggled, htoggled⟩ := togglePin?_of_find? hfound
      rw [hpin, if_pos rfl, htoggled, Except.ok.injEq, Option.getD_some] at heq
      have hcount : pinnedCount changed = pinnedCount links := by
        have hpinned : changed.map (·.pinned) = links.map (·.pinned) :=
          Sequence.map_modifyFirst? hchanged hl (h.pinned he)
        rw [pinnedCount_eq_countP, pinnedCount_eq_countP, hpinned]
      exact absurd (heq ▸ hcount.symm) (pinnedCount_togglePin?_ne htoggled)
    | false =>
      rw [hpin, if_neg Bool.false_ne_true, Except.ok.injEq] at heq
      obtain rfl : l' = edited := Option.some.inj (hl.symm.trans (heq ▸ hfound))
      exact ⟨he, hpin⟩
  · rintro ⟨he, hpin⟩
    obtain ⟨changed, hchanged, heq⟩ := update_eq hl he
    rw [Sequence.modifyFirst?_eq_self hl rfl, Option.some.injEq] at hchanged
    rw [heq, hpin, if_neg Bool.false_ne_true, hchanged]

/-- Where the ids are distinct, the link with the id is the one that was pinned or
unpinned. -/
theorem pinned_of_togglePin? (hids : (links.map (·.id)).Nodup) (h : togglePin? links id = some next) {l m : Link}
    (hl : links.find? (·.id == id) = some l) (hm : m ∈ next) (hmid : m.id = id) : m.pinned = !l.pinned := by
  obtain ⟨flipped, hflipped, rfl⟩ := Option.map_eq_some_iff.mp h
  have hflip : ∀ k, (flipPin k l).id = l.id ∧ (flipPin k l).pinned = !l.pinned := by
    intro k
    unfold flipPin
    cases hp : l.pinned <;> exact ⟨rfl, rfl⟩
  have hfound := Sequence.find?_modifyFirst? hflipped hl (by rw [(hflip _).1, id_of_find? hl, beq_self_eq_true])
  have hnodup : (flipped.map (·.id)).Nodup := by
    have hsame : flipped.map (·.id) = links.map (·.id) := Sequence.map_modifyFirst? hflipped hl (hflip _).1
    rw [hsame]
    exact hids
  -- counting the pins again and sorting leave ids and pins alone
  obtain ⟨k, hk, hkm⟩ : ∃ k ∈ flipped, (k.id, k.pinned) = (m.id, m.pinned) := by
    have hmem : (m.id, m.pinned) ∈ (compactPins flipped).map fun k => (k.id, k.pinned) :=
      List.mem_map_of_mem ((sort_perm _).mem_iff.mp hm)
    rw [map_compactPins fun _ _ => rfl] at hmem
    exact List.mem_map.mp hmem
  obtain ⟨hkid, hkpin⟩ := Prod.mk.inj hkm
  have hsame : k = flipPin (pinnedCount links) l := by
    refine List.inj_on_of_nodup_map hnodup hk (List.mem_of_find?_eq_some hfound) ?_
    rw [hkid, hmid, (hflip _).1, id_of_find? hl]
  rw [← hkpin, hsame, (hflip _).2]

/-- **After an update the link is as it asks**, if no other link has its id. -/
theorem Settles.asAsked_of_update (h : Settles edit) (hids : (links.map (·.id)).Nodup)
    (hu : update links u edit = .ok next) {m : Link} (hm : next.find? (·.id == u.id) = some m) : AsAsked u edit m := by
  obtain ⟨l, edited, -, hl, he, -⟩ := update_eq_ok hu
  obtain ⟨changed, hchanged, heq⟩ := update_eq hl he
  have hfound := h.find?_changed hl he hchanged
  have hmem := List.mem_of_find?_eq_some hm
  rw [hu] at heq
  cases hpin : u.changesPin l with
  | false =>
    rw [hpin, if_neg Bool.false_ne_true, Except.ok.injEq] at heq
    obtain rfl : m = edited := Option.some.inj (hm.symm.trans (heq ▸ hfound))
    refine ⟨h.again l m he, ?_⟩
    unfold Update.changesPin at hpin ⊢
    rw [h.pinned he]
    exact hpin
  | true =>
    obtain ⟨toggled, htoggled⟩ := togglePin?_of_find? hfound
    rw [hpin, if_pos rfl, htoggled, Except.ok.injEq, Option.getD_some] at heq
    obtain rfl : next = toggled := heq
    have hnodup : (changed.map (·.id)).Nodup := by
      have hsame : changed.map (·.id) = links.map (·.id) := Sequence.map_modifyFirst? hchanged hl (h.id l edited he)
      rw [hsame]
      exact hids
    constructor
    · -- being pinned or not makes no difference to whether an edit is made already
      have hfree : RankFree changed.length fun k => k.id = u.id → edit k = .ok k :=
        ⟨fun k n hn hk hid => (h.rankFree _).order k n hn (hk hid),
          fun k p r hr hk hid => (h.rankFree _).pin k p r hr (hk hid)⟩
      refine hfree.togglePin? (Nat.le_refl _) (fun k hk hid => ?_) htoggled m hmem (id_of_find? hm)
      have hsame : k = edited := by
        refine List.inj_on_of_nodup_map hnodup hk (List.mem_of_find?_eq_some hfound) ?_
        exact hid.trans (id_of_find? hfound).symm
      rw [hsame]
      exact h.again l edited he
    · have hflipped := pinned_of_togglePin? hnodup htoggled hfound hmem (id_of_find? hm)
      unfold Update.changesPin at hpin ⊢
      rw [hflipped, h.pinned he]
      cases hasked : u.pinned with
      | none => rfl
      | some p =>
        rw [hasked] at hpin
        revert hpin
        cases p <;> cases l.pinned <;> decide

end Shelf

end Bookmarks
