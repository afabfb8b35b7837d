import Bookmarks.Proofs.Collection.Distinct
import Bookmarks.Proofs.Shelf.Ranking

/-! # What a merge makes of two collections

A merge goes over the links several times: the pins that are there are counted, ids are
claimed, categories redirected, the pins that come in counted behind the others; then links of
unknown categories are adopted, all pins are counted again, and the shelf is sorted.  Two
views of a list of links follow it through all of this.

* Without the ranks of its pins, **a merged shelf is the links that were there, followed by
  those that came in**, each in a category that is known (`links_merge_perm`).
* By their ranks, **its pins are those that were there, followed by those that came in**
  (`pins_merge`); counting what is counted already, behind what is there or not, only repeats
  the order.

Of the categories from elsewhere those are let in whose id and name are both new at the time
(`Category.newAmong`).
-/
namespace Bookmarks

/-! ## Categories -/

namespace Category

/-- The categories that come in beside those that are present: each whose id and name are both
new by then. -/
def newAmong (present : List Category) : List Category → List Category
  | [] => []
  | c :: incoming =>
    if ∃ p ∈ present, p.id = c.id ∨ p.name = c.name then newAmong present incoming
    else c :: newAmong (present ++ [c]) incoming

end Category

namespace Collection

theorem Admission.takeIn_of_present {a : Admission} {c : Category}
    (h : ∃ p ∈ a.categories, p.id = c.id ∨ p.name = c.name) :
    (a.takeIn c).categories = a.categories ∧ (a.takeIn c).added = a.added := by
  unfold takeIn
  by_cases hknown : Category.isKnown a.categories c.id
  · rw [if_pos hknown]
    exact ⟨rfl, rfl⟩
  · rw [if_neg hknown]
    cases hsame : a.categories.find? (·.name == c.name) with
    | some same => exact ⟨rfl, rfl⟩
    | none =>
      obtain ⟨p, hp, hid | hname⟩ := h
      · exact absurd (Category.isKnown_iff.mpr ⟨p, hp, hid⟩) hknown
      · exact absurd (beq_iff_eq.mpr hname) (List.find?_eq_none.mp hsame p hp)

theorem Admission.takeIn_of_new {a : Admission} {c : Category}
    (h : ¬ ∃ p ∈ a.categories, p.id = c.id ∨ p.name = c.name) :
    a.takeIn c = { a with categories := a.categories ++ [c], added := a.added + 1 } := by
  have hknown : ¬ Category.isKnown a.categories c.id := by
    intro hknown
    obtain ⟨p, hp, hid⟩ := Category.isKnown_iff.mp hknown
    exact h ⟨p, hp, Or.inl hid⟩
  have hname : a.categories.find? (·.name == c.name) = none := by
    refine List.find?_eq_none.mpr fun p hp hname => ?_
    exact h ⟨p, hp, Or.inr (eq_of_beq hname)⟩
  unfold takeIn
  rw [if_neg hknown, hname]

/-- **Exactly those categories are added that are new by then.** -/
theorem Admission.foldl_takeIn_eq (incoming : List Category) (a : Admission) :
    (incoming.foldl takeIn a).categories = a.categories ++ Category.newAmong a.categories incoming ∧
      (incoming.foldl takeIn a).added = a.added + (Category.newAmong a.categories incoming).length := by
  induction incoming generalizing a with
  | nil => exact ⟨(List.append_nil _).symm, rfl⟩
  | cons c incoming ih =>
    obtain ⟨hcategories, hadded⟩ := ih (a.takeIn c)
    rw [List.foldl_cons, hcategories, hadded, Category.newAmong]
    by_cases hpresent : ∃ p ∈ a.categories, p.id = c.id ∨ p.name = c.name
    · obtain ⟨hsame, hcount⟩ := takeIn_of_present hpresent
      rw [if_pos hpresent, hsame, hcount]
      exact ⟨rfl, rfl⟩
    · rw [if_neg hpresent, takeIn_of_new hpresent]
      dsimp only
      rw [List.append_assoc, List.length_cons]
      exact ⟨rfl, by omega⟩

/-! ## Links that come in -/

/-- What becomes of links that come in where some ids are taken and some fresh ids are spent.
They come in one for one, each as it is but for its id and its category; an id is *replaced*
exactly if it is empty, or taken, or that of a link that came in before, and then by the next
fresh one. -/
structure Arrivals (fresh : Nat → String) (spent : Nat) (taken : List String) (links arrivals : List Link)
    (replaced : List Bool) : Prop where
  length : arrivals.length = links.length
  length_replaced : replaced.length = links.length
  replaced_iff : ∀ (k : Nat) (l : Link), links[k]? = some l →
    (replaced[k]? = some true ↔ l.id = "" ∨ l.id ∈ taken ∨ l.id ∈ (arrivals.take k).map (·.id))
  link : ∀ (k : Nat) (l : Link), links[k]? = some l → ∃ m : Link, arrivals[k]? = some m ∧ m = { l with
    id := if replaced[k]? = some true then fresh (spent + (replaced.take k).count true) else l.id
    categoryId := m.categoryId }

section
variable {fresh : Nat → String} {spent : Nat} {taken : List String} {links arrivals : List Link}
  {replaced : List Bool}

/-- One more link comes in before the others. -/
theorem Arrivals.cons {l : Link} {id : String} {clash : Bool}
    (hclash : clash = true ↔ l.id = "" ∨ l.id ∈ taken) (hid : id = if clash then fresh spent else l.id)
    (h : Arrivals fresh (spent + if clash then 1 else 0) (id :: taken) links arrivals replaced) :
    Arrivals fresh spent taken (l :: links) ({ l with id } :: arrivals) (clash :: replaced) where
  length := by rw [List.length_cons, List.length_cons, h.length]
  length_replaced := by rw [List.length_cons, List.length_cons, h.length_replaced]
  replaced_iff k m hm := by
    cases k with
    | zero =>
      obtain rfl := Option.some.inj hm
      simpa using hclash
    | succ k =>
      have hk := h.replaced_iff k m hm
      rw [List.mem_cons] at hk
      rw [List.getElem?_cons_succ, hk, List.take_succ_cons, List.map_cons, List.mem_cons]
      exact or_congr_right (or_assoc.trans or_left_comm)
  link k m hm := by
    cases k with
    | zero =>
      obtain rfl := Option.some.inj hm
      refine ⟨_, rfl, ?_⟩
      simp [hid]
    | succ k =>
      obtain ⟨n, hn, heq⟩ := h.link k m hm
      refine ⟨n, hn, ?_⟩
      rw [heq, List.getElem?_cons_succ, List.take_succ_cons, List.count_cons]
      cases clash
      · simp
      · simp [Nat.add_comm, Nat.add_left_comm]

theorem claimIds_arrivals (fresh : Nat → String) (spent : Nat) (taken : List String) (links : List Link) :
    ∃ replaced, Arrivals fresh spent taken links (claimIds fresh spent taken links).1 replaced ∧
      (claimIds fresh spent taken links).2 = spent + replaced.count true := by
  induction links generalizing spent taken with
  | nil => exact ⟨[], ⟨rfl, rfl, by rintro _ _ ⟨⟩, by rintro _ _ ⟨⟩⟩, rfl⟩
  | cons l links ih =>
    have hiff : (taken.contains l.id || l.id == "") = true ↔ l.id = "" ∨ l.id ∈ taken := by
      rw [Bool.or_eq_true, List.contains_iff_mem, beq_iff_eq, or_comm]
    unfold claimIds
    by_cases hclash : (taken.contains l.id || l.id == "") = true
    · obtain ⟨replaced, h, hspent⟩ := ih (spent + 1) (fresh spent :: taken)
      rw [if_pos hclash]
      refine ⟨true :: replaced, h.cons (iff_of_true rfl (hiff.mp hclash)) rfl, ?_⟩
      rw [List.count_cons_self, hspent]
      omega
    · obtain ⟨replaced, h, hspent⟩ := ih spent (l.id :: taken)
      rw [if_neg hclash]
      refine ⟨false :: replaced, h.cons (iff_of_false Bool.false_ne_true (mt hiff.mpr hclash)) rfl, ?_⟩
      rw [List.count_cons_of_ne Bool.false_ne_true, hspent]

/-- A change of categories lets the same links come in. -/
theorem Arrivals.map (h : Arrivals fresh spent taken links arrivals replaced) {f : Link → Link}
    (hf : ∀ l, ∃ categoryId, f l = { l with categoryId }) :
    Arrivals fresh spent taken links (arrivals.map f) replaced where
  length := by rw [List.length_map, h.length]
  length_replaced := h.length_replaced
  replaced_iff k l hl := by
    have hids : ((arrivals.map f).take k).map (·.id) = (arrivals.take k).map (·.id) := by
      rw [← List.map_take, List.map_map]
      refine List.map_congr_left fun m _ => ?_
      obtain ⟨categoryId, hm⟩ := hf m
      rw [Function.comp_apply, hm]
    rw [hids]
    exact h.replaced_iff k l hl
  link k l hl := by
    obtain ⟨m, hk, hm⟩ := h.link k l hl
    obtain ⟨categoryId, hfm⟩ := hf m
    refine ⟨f m, by rw [List.getElem?_map, hk, Option.map_some], ?_⟩
    rw [hfm, hm]

end

/-! ## Pins that come in -/

/-- The pins that come in rank behind all that are there. -/
theorem le_of_mem_rankPinsFrom {n : Nat} {claimed : Shelf} {l : Link} (hl : l ∈ rankPinsFrom n claimed)
    (hp : l.pinned) : (n : Int) ≤ Shelf.pinRank l := by
  obtain ⟨i, hi⟩ := List.getElem?_of_mem hl
  rw [rankPinsFrom, Sequence.getElem?_renumber] at hi
  obtain ⟨m, hm, rfl⟩ := Option.map_eq_some_iff.mp hi
  have hmp : m.pinned = true := by
    split at hp
    · exact hp
    · exact hp
  have hplace : i ∈ Shelf.pinnedPlaces claimed :=
    (Shelf.pinnedPlaces_perm claimed).mem_iff.mpr (Sequence.mem_indices.mpr ⟨m, hm, hmp⟩)
  rw [if_pos hplace]
  exact Int.ofNat_le.mpr (Nat.le_add_right n _)

theorem pinRank_le_of_mem_compactPins {links : Shelf} {l : Link} (hl : l ∈ Shelf.compactPins links) (hp : l.pinned) :
    Shelf.pinRank l ≤ Shelf.pinnedCount (Shelf.compactPins links) := by
  obtain ⟨k, hk, hrank⟩ := (Shelf.compactPins_counted links).rank_lt hl hp
  rw [Shelf.pinRank, hrank]
  exact Int.ofNat_le.mpr (Nat.le_of_lt hk)

theorem map_unranked_rankPinsFrom (n : Nat) (claimed : Shelf) :
    (rankPinsFrom n claimed).map Shelf.unranked = claimed.map Shelf.unranked := by
  unfold rankPinsFrom
  exact Sequence.map_renumber (fun k l => Shelf.unranked_withPinnedOrder (n + k) l) _ _

theorem pinsByRank_rankPinsFrom (n : Nat) (claimed : Shelf) : Shelf.pinsByRank (rankPinsFrom n claimed) =
    (Shelf.pinsByRank claimed).mapIdx fun k => Shelf.withPinnedOrder (n + k) := by
  refine Shelf.pinsByRank_renumber (fun k => Shelf.withPinnedOrder (n + k)) (fun _ _ => rfl) (fun j k _ _ => ?_) claimed
  exact Int.ofNat_le.trans Nat.add_le_add_iff_left

/-! ## All links -/

/-- Links that are the same but for their ranks are so after they were adopted. -/
theorem map_unranked_map_adopt {links links' : Shelf} (h : links.map Shelf.unranked = links'.map Shelf.unranked)
    (categories : List Category) : (links.map (Shelf.adopt categories)).map Shelf.unranked =
      (links'.map (Shelf.adopt categories)).map Shelf.unranked := by
  have hadopt (xs : Shelf) : (xs.map (Shelf.adopt categories)).map Shelf.unranked =
      (xs.map Shelf.unranked).map (Shelf.adopt categories) := by
    rw [List.map_map, List.map_map]
    refine List.map_congr_left fun l _ => ?_
    show Shelf.unranked (Shelf.adopt categories l) = Shelf.adopt categories (Shelf.unranked l)
    unfold Shelf.adopt Shelf.unranked
    split <;> rfl
  rw [hadopt, hadopt, h]

theorem exists_category_adopt (categories : List Category) (l : Link) :
    ∃ categoryId, Shelf.adopt categories l = { l with categoryId } := by
  unfold Shelf.adopt
  split
  · exact ⟨l.categoryId, rfl⟩
  · exact ⟨Category.commonId, rfl⟩

theorem Admission.exists_category_redirect (a : Admission) (l : Link) :
    ∃ categoryId, a.redirect l = { l with categoryId } := by
  unfold redirect
  split
  · exact ⟨_, rfl⟩
  · exact ⟨l.categoryId, rfl⟩

variable (fresh : Nat → String) (c : Collection) (links : List Link) (categories : List Category)

/-- The links from elsewhere as they come in, without the ranks that their pins are given. -/
def arrivals : List Link :=
  let admission := Admission.takeInAll c.categories categories
  ((claimIds fresh 0 (c.links.map (·.id)) links).1.map admission.redirect).map (Shelf.adopt admission.categories)

theorem arrivals_eq : arrivals fresh c links categories =
    ((claimIds fresh 0 (c.links.map (·.id)) links).1.map (Admission.takeInAll c.categories categories).redirect).map
      (Shelf.adopt (c.merge fresh links categories).collection.categories) := rfl

theorem links_merge_eq :
    let merged := (c.merge fresh links categories).collection
    let admission := Admission.takeInAll c.categories categories
    let claimed := (claimIds fresh 0 (c.links.map (·.id)) links).1.map admission.redirect
    merged.links = Shelf.sort (Shelf.compactPins ((Shelf.compactPins c.links ++
      rankPinsFrom (Shelf.pinnedCount (Shelf.compactPins c.links)) claimed).map (Shelf.adopt merged.categories))) := by
  intro merged admission claimed
  have hids := Shelf.ids_compactPins c.links
  simp only [claimed, ← hids]
  rfl

/-- **No link is lost or invented**, and none changes but for the rank of its pin and its
category, except those that come in, whose ids may change besides. -/
theorem links_merge_perm :
    let merged := (c.merge fresh links categories).collection
    (merged.links.map Shelf.unranked).Perm
      ((c.links.map (Shelf.adopt merged.categories) ++ arrivals fresh c links categories).map Shelf.unranked) := by
  intro merged
  rw [show merged.links = _ from links_merge_eq fresh c links categories]
  refine ((Shelf.sort_perm _).map _).trans (List.Perm.of_eq ?_)
  rw [Shelf.map_compactPins (fun _ _ => rfl), arrivals_eq, ← List.map_append]
  refine map_unranked_map_adopt ?_ _
  rw [List.map_append, List.map_append, Shelf.map_compactPins (fun _ _ => rfl), map_unranked_rankPinsFrom]

/-- **The pins are those that were there by their ranks, then those that came in by theirs.** -/
theorem pins_merge :
    let merged := (c.merge fresh links categories).collection
    merged.links.filter (·.pinned) =
      (Shelf.pinsByRank (c.links.map (Shelf.adopt merged.categories)) ++
        Shelf.pinsByRank (arrivals fresh c links categories)).mapIdx Shelf.withPinnedOrder := by
  intro merged
  have hpinned (l : Link) : (Shelf.adopt merged.categories l).pinned = l.pinned := by
    obtain ⟨categoryId, hl⟩ := exists_category_adopt merged.categories l
    rw [hl]
  have hrank (l : Link) : (Shelf.adopt merged.categories l).pinnedOrder = l.pinnedOrder := by
    obtain ⟨categoryId, hl⟩ := exists_category_adopt merged.categories l
    rw [hl]
  rw [show merged.links = _ from links_merge_eq fresh c links categories, Shelf.filter_pinned_sort_compactPins,
    arrivals_eq, Shelf.pinsByRank_map hpinned hrank, Shelf.pinsByRank_map hpinned hrank,
    Shelf.pinsByRank_map hpinned hrank, Shelf.pinsByRank_append ?_, Shelf.pinsByRank_compactPins,
    pinsByRank_rankPinsFrom]
  · -- what the pins were counted from does not matter now that they are counted again
    refine Shelf.mapIdx_withPinnedOrder_congr ?_
    rw [← List.map_append]
    refine map_unranked_map_adopt ?_ _
    rw [List.map_append, List.map_append, Shelf.map_unranked_mapIdx Shelf.unranked_withPinnedOrder,
      Shelf.map_unranked_mapIdx fun k l => Shelf.unranked_withPinnedOrder _ l]
  · intro a ha b hb hap hbp
    exact Int.le_trans (pinRank_le_of_mem_compactPins ha hap) (le_of_mem_rankPinsFrom hb hbp)

/-! ## The whole merge -/

/-- **A merge loses and invents nothing.**  The links afterwards are those that were there, of
which those of unknown categories are in the common one, and beside them the links from
elsewhere, one for one and as they were but for their ids, their categories and the ranks of
their pins; an id is replaced exactly if it is empty or taken by then.

The pins have the ranks `0, 1, …, n - 1`: first those that were there, then those that came
in, both by their ranks, where one without a rank counts as one with the greatest and pins
that count the same keep their order; no other link has a rank.  The categories are the ones
that were there, with the common one first, and those that were new by then.  The numbers
that are answered are those of the links and categories that came in and of the ids that were
replaced.

So pins without a rank come last among those that were there, or that came in, exactly if none
of them stands before a pin with the greatest rank. -/
theorem merge_loses_and_invents_nothing (fresh : Nat → String) (c : Collection) (links : List Link)
    (categories : List Category) :
    let merged := c.merge fresh links categories
    let result := merged.collection
    let present := Category.withCommonFirst c.categories
    ∃ (arrivals : List Link) (replaced : List Bool),
      Arrivals fresh 0 (c.links.map (·.id)) links arrivals replaced ∧
      (result.links.map Shelf.unranked).Perm
        ((c.links.map (Shelf.adopt result.categories) ++ arrivals).map Shelf.unranked) ∧
      result.links.filter (·.pinned) =
        (Shelf.pinsByRank (c.links.map (Shelf.adopt result.categories)) ++
          Shelf.pinsByRank arrivals).mapIdx Shelf.withPinnedOrder ∧
      (∀ l ∈ result.links, l.pinned = false → l.pinnedOrder = none) ∧
      (∀ l ∈ result.links, Category.isKnown result.categories l.categoryId) ∧
      (∃ first, present = first :: c.categories.filter (·.id != "common") ∧ first.id = "common" ∧
        ((∃ p ∈ c.categories, p.id = "common") → first ∈ c.categories)) ∧
      result.categories = present ++ Category.newAmong present categories ∧
      merged.linksAdded = links.length ∧
      merged.categoriesAdded = (Category.newAmong present categories).length ∧
      merged.idsReassigned = replaced.count true ∧
      ∀ shelf ∈ [c.links, arrivals], (∀ l ∈ shelf, ∀ r ∈ l.pinnedOrder, r ≤ maxRank) →
        (((Shelf.pinsByRank shelf).Pairwise fun a b => a.pinnedOrder = none → b.pinnedOrder = none) ↔
          (shelf.filter (·.pinned)).Pairwise fun a b => a.pinnedOrder = none → b.pinnedOrder ≠ some maxRank) := by
  intro merged result present
  obtain ⟨replaced, hclaimed, hspent⟩ := claimIds_arrivals fresh 0 (c.links.map (·.id)) links
  have harrivals := (hclaimed.map (Admission.takeInAll c.categories categories).exists_category_redirect).map
    (exists_category_adopt result.categories)
  obtain ⟨hcategories, hadded⟩ := Admission.foldl_takeIn_eq categories ⟨present, [], 0⟩
  have hordered : result.InOrder := merge_inOrder _ _ _ _
  refine ⟨arrivals fresh c links categories, replaced, harrivals, links_merge_perm fresh c links categories,
    pins_merge fresh c links categories, hordered.arranged.counted.unranked, hordered.known,
    Category.withCommonFirst_eq_cons c.categories, hcategories, rfl, hadded.trans (Nat.zero_add _), ?_,
    fun shelf _ h => Shelf.unranked_last_iff h⟩
  have hids := Shelf.ids_compactPins c.links
  show (claimIds fresh 0 ((Shelf.compactPins c.links).map (·.id)) links).2 = replaced.count true
  rw [hids, hspent, Nat.zero_add]

/-- A pin without a rank stays before a pin that came in behind it with the greatest rank. -/
theorem not_every_unranked_pin_last :
    ¬ ∀ (fresh : Nat → String) (links : List Link), (∀ l ∈ links, l.Storable) →
      ∃ ranked, ranked.Perm (links.filter fun l => l.pinned && l.pinnedOrder.isSome) ∧
        (((⟨[], []⟩ : Collection).merge fresh links []).collection.links.filter (·.pinned)).map (·.title) =
          (ranked ++ links.filter fun l => l.pinned && l.pinnedOrder.isNone).map (·.title) := by
  intro h
  let pin (title : String) (rank : Option Int) : Link :=
    ⟨title, "https://a.example", title, none, "common", none, true, none, rank, 0⟩
  obtain ⟨ranked, hranked, heq⟩ := h (fun _ => "") [pin "A" none, pin "B" (some maxRank)] (by decide)
  obtain rfl : ranked = [pin "B" (some maxRank)] := List.perm_singleton.mp hranked
  exact absurd heq (by decide)

end Collection

end Bookmarks
