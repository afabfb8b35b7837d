import Bookmarks.Proofs.Shelf.Again
import Mathlib.Data.Multiset.MapFold

/-! # What the operations on a shelf leave alone

Every operation makes a whole new list, ranks it and sorts it.  Which link of the new list
is which of the old one cannot be told by ids, since ids need not be distinct; what can be
said is that **the links of both lists can be paired** so that those of a pair are the same
but for what the operation is there to change.  The pairs are those of `Multiset.Rel`,
which counts every link as often as it is there and does not mind the order.

Counting the pins and sorting pairs every link with one that differs at most in its rank
among the pins (`rel_sort_compactPins`); that is all that happens to the links an operation
is not aimed at, with the exception of reordering (`rel_reorder`).
-/
namespace Bookmarks

namespace Sequence

variable {α : Type} {counts : α → Bool} {assign : Nat → α → α} {places : List Nat} {xs : List α}

/-- Only the elements that count are given ranks. -/
theorem rel_renumber {R : α → α → Prop} (hplaces : places.Perm (indices counts xs)) (hrefl : ∀ x, R x x)
    (hassign : ∀ k x, counts x → R x (assign k x)) : Multiset.Rel R xs (renumber assign places xs) := by
  -- both lists are read off the elements with their indices
  have hxs : (xs : Multiset α) = (xs.zipIdx : Multiset (α × Nat)).map (·.1) := by
    rw [Multiset.map_coe, List.zipIdx_map_fst]
  rw [renumber_eq_map, hxs, ← Multiset.map_coe, Multiset.rel_map]
  refine Multiset.rel_refl_of_refl_on fun p hp => ?_
  split
  · next hmem =>
    obtain ⟨x, hx, hcounts⟩ := mem_indices.mp (hplaces.mem_iff.mp hmem)
    rw [List.mem_zipIdx_iff_getElem?.mp hp, Option.some.injEq] at hx
    exact hassign _ _ (hx ▸ hcounts)
  · exact hrefl p.1

end Sequence

namespace Shelf

variable {links next : Shelf} {l : Link} {id : String}

/-! ## Counting and sorting -/

/-- A link that differs from another one in nothing but its rank among the pins. -/
def SameButPinRank (l m : Link) : Prop := m = { l with pinnedOrder := m.pinnedOrder }

theorem SameButPinRank.refl (l : Link) : SameButPinRank l l := rfl

theorem SameButPinRank.trans {k l m : Link} (h : SameButPinRank k l) (h' : SameButPinRank l m) :
    SameButPinRank k m :=
  calc m = { l with pinnedOrder := m.pinnedOrder } := h'
    _ = { k with pinnedOrder := m.pinnedOrder } := by rw [show l = _ from h]

theorem rel_same_refl (s : Multiset Link) : Multiset.Rel SameButPinRank s s :=
  Multiset.rel_refl_of_refl_on fun l _ => .refl l

theorem rel_compactPins (links : Shelf) : Multiset.Rel SameButPinRank links (compactPins links) := by
  unfold compactPins
  rw [← Multiset.map_coe, Multiset.rel_map_right]
  refine Sequence.rel_renumber (pinnedPlaces_perm links) (fun l => ?_) fun k l hpinned => ?_
  · unfold clearUnpinned
    split <;> rfl
  · unfold clearUnpinned
    split <;> rfl

theorem coe_sort (links : Shelf) : (sort links : Multiset Link) = links :=
  Multiset.coe_eq_coe.mpr (sort_perm links)

/-- **Counting the pins and sorting changes ranks among the pins at most.** -/
theorem rel_sort_compactPins (links : Shelf) : Multiset.Rel SameButPinRank links (sort (compactPins links)) := by
  rw [coe_sort]
  exact rel_compactPins links

/-! ## One link among the others -/

/-- The first link with an id, and all the others. -/
theorem coe_eq_cons_eraseP (hl : links.find? (·.id == id) = some l) :
    (links : Multiset Link) = l ::ₘ links.eraseP (·.id == id) :=
  Multiset.coe_eq_coe.mpr (Sequence.find?_cons_eraseP_perm hl)

/-- The first link with an id is taken out, and the others stay. -/
theorem rel_remove? (h : remove? links id = some next) :
    ∃ l, links.find? (·.id == id) = some l ∧ Multiset.Rel SameButPinRank (links.eraseP (·.id == id)) next := by
  obtain ⟨l, hl, rfl⟩ := Option.map_eq_some_iff.mp h
  refine ⟨l, hl, ?_⟩
  dsimp only
  split
  · exact rel_compactPins _
  · exact rel_same_refl _

/-- A link in the other state of being pinned. -/
def turned (l : Link) : Link := { l with pinned := !l.pinned }

theorem sameButPinRank_flipPin (count : Nat) (l : Link) : SameButPinRank (turned l) (flipPin count l) := by
  unfold flipPin turned
  cases hp : l.pinned <;> rfl

/-- The first link with an id is pinned or unpinned, and the others stay. -/
theorem rel_togglePin? (hl : links.find? (·.id == id) = some l) (h : togglePin? links id = some next) :
    ∃ (m : Link) (others : Multiset Link), (next : Multiset Link) = m ::ₘ others ∧ SameButPinRank (turned l) m ∧
      Multiset.Rel SameButPinRank (links.eraseP (·.id == id)) others := by
  obtain ⟨flipped, hflipped, rfl⟩ := Option.map_eq_some_iff.mp h
  have hcons : (flipped : Multiset Link) = flipPin (pinnedCount links) l ::ₘ links.eraseP (·.id == id) :=
    Multiset.coe_eq_coe.mpr (Sequence.modifyFirst?_perm hflipped hl)
  have hrel := rel_sort_compactPins flipped
  rw [hcons] at hrel
  obtain ⟨m, others, hm, hothers, heq⟩ := Multiset.rel_cons_left.mp hrel
  exact ⟨m, others, heq, (sameButPinRank_flipPin _ l).trans hm, hothers⟩

/-- The first link with the id of an update is edited, and turned if the update asks for it;
the others stay. -/
theorem rel_update {u : Update} {edit : Link → Except InvalidLink Link} {edited : Link}
    (hl : links.find? (·.id == u.id) = some l) (he : edit l = .ok edited) (hid : edited.id = l.id)
    (h : update links u edit = .ok next) :
    ∃ (m : Link) (others : Multiset Link), (next : Multiset Link) = m ::ₘ others ∧
      SameButPinRank (if u.changesPin l then turned edited else edited) m ∧
      Multiset.Rel SameButPinRank (links.eraseP (·.id == u.id)) others := by
  obtain ⟨changed, hchanged, heq⟩ := update_eq hl he
  rw [h] at heq
  have hcons : (changed : Multiset Link) = edited ::ₘ links.eraseP (·.id == u.id) :=
    Multiset.coe_eq_coe.mpr (Sequence.modifyFirst?_perm hchanged hl)
  cases hpin : u.changesPin l with
  | false =>
    rw [hpin, if_neg Bool.false_ne_true, Except.ok.injEq] at heq
    rw [heq, if_neg Bool.false_ne_true]
    exact ⟨edited, _, hcons, .refl edited, rel_same_refl _⟩
  | true =>
    have hfound : changed.find? (·.id == u.id) = some edited := by
      refine Sequence.find?_modifyFirst? hchanged hl ?_
      rw [hid, id_of_find? hl]
      exact beq_self_eq_true u.id
    obtain ⟨toggled, htoggled⟩ := togglePin?_of_find? hfound
    rw [hpin, if_pos rfl, htoggled, Except.ok.injEq, Option.getD_some] at heq
    rw [heq, if_pos rfl]
    obtain ⟨m, others, hnext, hm, hothers⟩ := rel_togglePin? hfound htoggled
    -- without the link they are aimed at, both lists are the same
    have hrest : (changed.eraseP (·.id == u.id) : Multiset Link) = links.eraseP (·.id == u.id) :=
      (Multiset.cons_inj_right edited).mp ((coe_eq_cons_eraseP hfound).symm.trans hcons)
    exact ⟨m, others, hnext, hm, hrest ▸ hothers⟩

/-! ## Putting in another order -/

theorem withRank_ofCategory (categoryId : String) (k : Nat) (l : Link) :
    (Scope.ofCategory categoryId).withRank k l = { l with order := some k } := by
  unfold Scope.ofCategory
  split <;> rfl

/-- **Putting a scope in another order ranks the links of the scope.** -/
theorem rel_reorder (links : Shelf) (activeId overId : String) (scope : Scope) :
    Multiset.Rel (fun l m => m = l ∨ scope.contains l = true ∧ ∃ k, m = scope.withRank k l) links
      (reorder links activeId overId scope) := by
  have hrefl : ∀ l : Link, l = l ∨ scope.contains l = true ∧ ∃ k, l = scope.withRank k l := fun _ => Or.inl rfl
  rcases reorder_eq links activeId overId scope with heq | ⟨places, hplaces, heq⟩
  · rw [heq]
    exact Multiset.rel_refl_of_refl_on fun l _ => hrefl l
  · rw [heq, coe_sort]
    exact Sequence.rel_renumber hplaces hrefl fun k l hin => Or.inr ⟨hin, k, rfl⟩

end Shelf

end Bookmarks
