import Bookmarks.Proofs.Collection.Repaired
import Mathlib.Data.List.Forall2

/-! # Where links go in a merge

A category from elsewhere that has a new id and a name that is there already is dropped, and
the first category of its name stands for it.  What is there grows while the categories come
in one after the other, so a category may stand for one that came in later than itself, and
an id may come in several times: **the links of an id follow the last category of this id that
was dropped** (`Admission.lookup_aliases`), even when another one of the same id was added.

All other links stay in their category, if it is there in the end, and go into the common one
if it is not (`Category.Destination`).
-/
namespace Bookmarks

/-! ## Categories that are dropped -/

namespace Category

/-- With these categories there, `c` is dropped for `target`: none of them has its id, and
`target` is the first that has its name. -/
def DroppedFor (there : List Category) (c target : Category) : Prop :=
  (∀ p ∈ there, p.id ≠ c.id) ∧ there.find? (·.name == c.name) = some target

/-- The `k`-th category that comes in is `c`, and it is dropped for `target`, which is there by
then. -/
def DroppedAt (present incoming : List Category) (k : Nat) (c target : Category) : Prop :=
  incoming[k]? = some c ∧ DroppedFor (present ++ newAmong present (incoming.take k)) c target

/-- The last category with this id that is dropped is dropped for `target`. -/
def LastDroppedFor (present incoming : List Category) (id : String) (target : Category) : Prop :=
  ∃ k c, DroppedAt present incoming k c target ∧ c.id = id ∧
    ∀ n d other, k < n → DroppedAt present incoming n d other → d.id ≠ id

/-- No category with this id is dropped. -/
def NeverDropped (present incoming : List Category) (id : String) : Prop :=
  ∀ k c target, DroppedAt present incoming k c target → c.id ≠ id

/-- The category into which a link from elsewhere goes, by the category it comes with: the one
that stands for it, if it is dropped; else its own, if that is there in the end; else the
common one. -/
inductive Destination (present incoming result : List Category) (id : String) : String → Prop where
  | matched {target : Category} (h : LastDroppedFor present incoming id target) :
    Destination present incoming result id target.id
  | own (h : NeverDropped present incoming id) (hknown : ∃ p ∈ result, p.id = id) :
    Destination present incoming result id id
  | common (h : NeverDropped present incoming id) (hunknown : ∀ p ∈ result, p.id ≠ id) :
    Destination present incoming result id "common"

section
variable {present incoming result : List Category} {c d target other : Category} {id : String} {k : Nat}

theorem DroppedAt.lt_length (h : DroppedAt present incoming k c target) : k < incoming.length :=
  (List.getElem?_eq_some_iff.mp h.1).1

/-- One more category is dropped or not, and those before it were dropped or not already. -/
theorem droppedAt_append_iff : DroppedAt present (incoming ++ [c]) k d target ↔
    DroppedAt present incoming k d target ∨
      k = incoming.length ∧ d = c ∧ DroppedFor (present ++ newAmong present incoming) c target := by
  unfold DroppedAt
  rcases Nat.lt_trichotomy k incoming.length with hk | rfl | hk
  · rw [List.getElem?_append_left hk, List.take_append_of_le_length (Nat.le_of_lt hk)]
    constructor
    · exact Or.inl
    · rintro (h | ⟨hlen, -⟩)
      · exact h
      · omega
  · rw [List.take_left, List.getElem?_concat_length, List.getElem?_eq_none (Nat.le_refl _)]
    constructor
    · rintro ⟨hc, h⟩
      obtain rfl := Option.some.inj hc
      exact Or.inr ⟨rfl, rfl, h⟩
    · rintro (⟨⟨⟩, -⟩ | ⟨-, rfl, h⟩)
      exact ⟨rfl, h⟩
  · have hnone : incoming[k]? = none := List.getElem?_eq_none (Nat.le_of_lt hk)
    have hnone' : (incoming ++ [c])[k]? = none := by
      apply List.getElem?_eq_none
      rw [List.length_append, List.length_singleton]
      omega
    rw [hnone, hnone']
    constructor
    · rintro ⟨⟨⟩, -⟩
    · rintro (⟨⟨⟩, -⟩ | ⟨hlen, -⟩)
      omega

/-- A category that is not dropped makes no difference to which ones are. -/
theorem droppedAt_append_of_not (h : ∀ target, ¬ DroppedFor (present ++ newAmong present incoming) c target) :
    DroppedAt present (incoming ++ [c]) k d target ↔ DroppedAt present incoming k d target := by
  rw [droppedAt_append_iff]
  constructor
  · rintro (hd | ⟨-, -, hd⟩)
    · exact hd
    · exact absurd hd (h target)
  · exact Or.inl

/-- A category that is dropped is the last one of its id by then. -/
theorem lastDroppedFor_append_self (h : DroppedFor (present ++ newAmong present incoming) c target) :
    LastDroppedFor present (incoming ++ [c]) c.id target := by
  refine ⟨incoming.length, c, droppedAt_append_iff.mpr (Or.inr ⟨rfl, rfl, h⟩), rfl, ?_⟩
  intro n d other hn hd
  have hlt := hd.lt_length
  rw [List.length_append, List.length_singleton] at hlt
  omega

theorem LastDroppedFor.append_of_ne (h : LastDroppedFor present incoming id target) (hc : c.id ≠ id) :
    LastDroppedFor present (incoming ++ [c]) id target := by
  obtain ⟨k, d, hd, hid, hlast⟩ := h
  refine ⟨k, d, droppedAt_append_iff.mpr (Or.inl hd), hid, ?_⟩
  intro n e other hn he
  rcases droppedAt_append_iff.mp he with he | ⟨-, rfl, -⟩
  · exact hlast n e other hn he
  · exact hc

theorem NeverDropped.append_of_ne (h : NeverDropped present incoming id) (hc : c.id ≠ id) :
    NeverDropped present (incoming ++ [c]) id := by
  intro k d target hd
  rcases droppedAt_append_iff.mp hd with hd | ⟨-, rfl, -⟩
  · exact h k d target hd
  · exact hc

/-- Only one category stands for the last of an id that is dropped. -/
theorem LastDroppedFor.unique (h : LastDroppedFor present incoming id target)
    (h' : LastDroppedFor present incoming id other) : target = other := by
  obtain ⟨k, c, hc, hid, hlast⟩ := h
  obtain ⟨n, d, hd, hid', hlast'⟩ := h'
  rcases Nat.lt_trichotomy k n with hlt | rfl | hlt
  · exact absurd hid' (hlast n d other hlt hd)
  · obtain rfl : c = d := Option.some.inj (hc.1.symm.trans hd.1)
    exact Option.some.inj (hc.2.2.symm.trans hd.2.2)
  · exact absurd hid (hlast' k c target hlt hc)

theorem LastDroppedFor.not_neverDropped (h : LastDroppedFor present incoming id target) :
    ¬ NeverDropped present incoming id := by
  obtain ⟨k, c, hc, hid, -⟩ := h
  intro hnever
  exact hnever k c target hc hid

/-- A link goes into one category only. -/
theorem Destination.unique {s t : String} (h : Destination present incoming result id s)
    (h' : Destination present incoming result id t) : s = t := by
  cases h with
  | matched hlast =>
    cases h' with
    | matched hlast' => rw [hlast.unique hlast']
    | own hnever _ => exact absurd hnever hlast.not_neverDropped
    | common hnever _ => exact absurd hnever hlast.not_neverDropped
  | own hnever hknown =>
    cases h' with
    | matched hlast => exact absurd hnever hlast.not_neverDropped
    | own _ _ => rfl
    | common _ hunknown =>
      obtain ⟨p, hp, hid⟩ := hknown
      exact absurd hid (hunknown p hp)
  | common hnever hunknown =>
    cases h' with
    | matched hlast => exact absurd hnever hlast.not_neverDropped
    | own _ hknown =>
      obtain ⟨p, hp, hid⟩ := hknown
      exact absurd hid (hunknown p hp)
    | common _ _ => rfl

end

end Category

namespace Collection

open Category

/-! ## What stands for what -/

namespace Admission
variable {existing incoming : List Category} {a : Admission} {c target : Category}

theorem categories_takeInAll (existing incoming : List Category) : (takeInAll existing incoming).categories =
    withCommonFirst existing ++ newAmong (withCommonFirst existing) incoming :=
  (foldl_takeIn_eq incoming _).1

theorem takeInAll_append (existing incoming : List Category) (c : Category) :
    takeInAll existing (incoming ++ [c]) = (takeInAll existing incoming).takeIn c := by
  unfold takeInAll
  rw [List.foldl_append]
  rfl

/-- A category that is dropped for another one is noted to stand for it. -/
theorem aliases_takeIn_of_dropped (h : DroppedFor a.categories c target) :
    (a.takeIn c).aliases = (c.id, target.id) :: a.aliases := by
  obtain ⟨hid, hname⟩ := h
  have hknown : ¬ Category.isKnown a.categories c.id := by
    intro hknown
    obtain ⟨p, hp, heq⟩ := Category.isKnown_iff.mp hknown
    exact hid p hp heq
  unfold takeIn
  rw [if_neg hknown, hname]

/-- Nothing else is noted. -/
theorem aliases_takeIn_of_not (h : ∀ target, ¬ DroppedFor a.categories c target) :
    (a.takeIn c).aliases = a.aliases := by
  unfold takeIn
  by_cases hknown : Category.isKnown a.categories c.id
  · rw [if_pos hknown]
  · rw [if_neg hknown]
    cases hname : a.categories.find? (·.name == c.name) with
    | none => rfl
    | some target =>
      refine absurd ⟨?_, hname⟩ (h target)
      intro p hp heq
      exact hknown (Category.isKnown_iff.mpr ⟨p, hp, heq⟩)

/-- **What stands for an id is what the last category of this id was dropped for.**  By
induction on the categories from the last one back: what comes in later is noted in front. -/
theorem lookup_aliases (existing incoming : List Category) (id : String) :
    (NeverDropped (withCommonFirst existing) incoming id ∧
        (takeInAll existing incoming).aliases.lookup id = none) ∨
      ∃ target, LastDroppedFor (withCommonFirst existing) incoming id target ∧
        (takeInAll existing incoming).aliases.lookup id = some target.id := by
  induction incoming using List.reverseRecOn with
  | nil =>
    refine Or.inl ⟨?_, rfl⟩
    rintro k c target ⟨⟨⟩, -⟩
  | append_singleton incoming c ih =>
    rw [takeInAll_append]
    by_cases hdropped : ∃ target, DroppedFor (takeInAll existing incoming).categories c target
    · obtain ⟨target, hdropped⟩ := hdropped
      rw [aliases_takeIn_of_dropped hdropped, List.lookup_cons]
      rw [categories_takeInAll] at hdropped
      by_cases hid : id = c.id
      · refine Or.inr ⟨target, ?_, by rw [hid, beq_self_eq_true]⟩
        rw [hid]
        exact lastDroppedFor_append_self hdropped
      · rw [beq_false_of_ne hid]
        rcases ih with ⟨hnever, hlookup⟩ | ⟨other, hlast, hlookup⟩
        · exact Or.inl ⟨hnever.append_of_ne (Ne.symm hid), hlookup⟩
        · exact Or.inr ⟨other, hlast.append_of_ne (Ne.symm hid), hlookup⟩
    · have hnot : ∀ target, ¬ DroppedFor (takeInAll existing incoming).categories c target := not_exists.mp hdropped
      rw [aliases_takeIn_of_not hnot]
      rw [categories_takeInAll] at hnot
      simpa only [NeverDropped, LastDroppedFor, droppedAt_append_of_not hnot] using ih

/-- What was there at some time is there in the end. -/
theorem mem_takeInAll_of_mem_take {k : Nat}
    (h : target ∈ withCommonFirst existing ++ newAmong (withCommonFirst existing) (incoming.take k)) :
    target ∈ (takeInAll existing incoming).categories := by
  rw [← categories_takeInAll] at h
  obtain ⟨⟨more, hmore⟩, -⟩ := foldl_takeIn_covers (incoming.drop k) (takeInAll existing (incoming.take k))
  have hall : (incoming.drop k).foldl takeIn (takeInAll existing (incoming.take k)) = takeInAll existing incoming := by
    unfold takeInAll
    rw [← List.foldl_append, List.take_append_drop]
  rw [← hall, hmore]
  exact List.mem_append_left _ h

theorem exists_category_adopt_redirect (a : Admission) (categories : List Category) (l : Link) :
    ∃ categoryId, Shelf.adopt categories (a.redirect l) = { l with categoryId } := by
  obtain ⟨redirected, hredirect⟩ := a.exists_category_redirect l
  obtain ⟨adopted, hadopt⟩ := exists_category_adopt categories { l with categoryId := redirected }
  rw [hredirect]
  exact ⟨adopted, hadopt⟩

/-- A link goes where its category says. -/
theorem destination_adopt_redirect (existing incoming : List Category) (l : Link) :
    let a := takeInAll existing incoming
    Destination (withCommonFirst existing) incoming a.categories l.categoryId
      (Shelf.adopt a.categories (a.redirect l)).categoryId := by
  intro a
  rcases lookup_aliases existing incoming l.categoryId with ⟨hnever, hlookup⟩ | ⟨target, hlast, hlookup⟩
  · have hredirect : a.redirect l = l := by
      unfold redirect
      rw [hlookup]
    rw [hredirect]
    unfold Shelf.adopt
    by_cases hknown : Category.isKnown a.categories l.categoryId
    · rw [if_pos hknown]
      exact .own hnever (Category.isKnown_iff.mp hknown)
    · rw [if_neg hknown]
      refine .common hnever ?_
      intro p hp hid
      exact hknown (Category.isKnown_iff.mpr ⟨p, hp, hid⟩)
  · have hredirect : a.redirect l = { l with categoryId := target.id } := by
      unfold redirect
      rw [hlookup]
    have hmem : target ∈ a.categories := by
      obtain ⟨k, c, hdropped, -⟩ := hlast
      exact mem_takeInAll_of_mem_take (List.mem_of_find?_eq_some hdropped.2.2)
    rw [hredirect, Shelf.adopt, if_pos (Category.isKnown_iff.mpr ⟨target, hmem, rfl⟩)]
    exact .matched hlast

end Admission

/-! ## The links of a merge -/

/-- Links are given ids one for one. -/
theorem forall₂_claimIds (fresh : Nat → String) (spent : Nat) (taken : List String) (links : List Link) :
    List.Forall₂ (fun l m => m = { l with id := m.id }) links (claimIds fresh spent taken links).1 := by
  induction links generalizing spent taken with
  | nil => exact .nil
  | cons l links ih =>
    unfold claimIds
    by_cases hclash : (taken.contains l.id || l.id == "") = true
    · rw [if_pos hclash]
      exact .cons rfl (ih _ _)
    · rw [if_neg hclash]
      exact .cons rfl (ih _ _)

/-- A link in a category that was there before a merge stays in it. -/
theorem settled_merge_eq_self (fresh : Nat → String) (c : Collection) (links : List Link) (categories : List Category)
    {l : Link} (h : ∃ p ∈ c.categories, p.id = l.categoryId) :
    settled (c.merge fresh links categories).collection.categories l = l := by
  have hbefore : Category.isKnown (withCommonFirst c.categories) l.categoryId :=
    isKnown_withCommonFirst.mpr (Or.inr (Category.isKnown_iff.mpr h))
  have hall : (c.merge fresh links categories).collection.categories =
      withCommonFirst c.categories ++ newAmong (withCommonFirst c.categories) categories :=
    Admission.categories_takeInAll c.categories categories
  rw [hall]
  exact if_pos (Category.isKnown_iff.mp (Category.isKnown_append_left hbefore _))

/-- **Every link finds its category.**  The links of a merge are those that were there, each as
it was, and those from elsewhere, one for one and as they were but for their ids and their
categories, all of them up to the ranks of their pins.

A link that was there stays in its category if that is there in the end, as every category is
that was there before, and goes into the common one otherwise.  A link from elsewhere goes into
the category for which the last category of its id was dropped, if one was; else it stays in
its own if that is there in the end, and goes into the common one otherwise.  So no link is in
a category that is not there. -/
theorem links_find_their_categories (fresh : Nat → String) (c : Collection) (links : List Link)
    (categories : List Category) :
    let result := (c.merge fresh links categories).collection
    ∃ arrivals : List Link,
      (result.links.map Shelf.unranked).Perm
        ((c.links.map (settled result.categories) ++ arrivals).map Shelf.unranked) ∧
      (∀ l ∈ c.links, (∃ p ∈ c.categories, p.id = l.categoryId) → settled result.categories l = l) ∧
      List.Forall₂ (fun l m => m = { l with id := m.id, categoryId := m.categoryId } ∧
        ∀ id, m.categoryId = id ↔
          Category.Destination (withCommonFirst c.categories) categories result.categories l.categoryId id)
        links arrivals ∧
      ∀ l ∈ result.links, ∃ p ∈ result.categories, p.id = l.categoryId := by
  intro result
  refine ⟨arrivals fresh c links categories, ?_, ?_, ?_, ?_⟩
  · rw [← adopt_eq_settled]
    exact links_merge_perm fresh c links categories
  · intro l _ hknown
    exact settled_merge_eq_self fresh c links categories hknown
  · unfold arrivals
    rw [List.forall₂_map_right_iff, List.forall₂_map_right_iff]
    refine (forall₂_claimIds fresh 0 (c.links.map (·.id)) links).imp ?_
    intro l m hm
    have hcategory : m.categoryId = l.categoryId := by rw [hm]
    have hdestination := Admission.destination_adopt_redirect c.categories categories m
    rw [hcategory] at hdestination
    constructor
    · obtain ⟨categoryId, hsettled⟩ := Admission.exists_category_adopt_redirect
        (Admission.takeInAll c.categories categories) (Admission.takeInAll c.categories categories).categories m
      rw [hsettled]
      exact congrArg (fun k : Link => { k with categoryId }) hm
    · intro id
      constructor
      · rintro rfl
        exact hdestination
      · intro h
        exact hdestination.unique h
  · intro l hl
    exact Category.isKnown_iff.mp ((merge_inOrder fresh c links categories).known l hl)

end Collection

end Bookmarks
