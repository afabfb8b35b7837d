import Bookmarks.Proofs.Shelf.Reordered
import Bookmarks.Proofs.Store.Failure

/-! # Where a new link comes to stand

A new unpinned link gets the order after all orders of its category, and is shown by it.  A
link without an order counts as zero there, but is shown by the time it was created at, which
may well be greater than that.  So **a new link is shown last in its category exactly if no
link without an order was created later than the order that is free**
(`new_link_shown_last_iff`); links that came in without an order stand behind all links that
are added afterwards.
-/
namespace Bookmarks

namespace Shelf

variable {links : Shelf} {l m : Link} {c : String}

/-- No order in a category is greater than the one that is free there. -/
theorem le_freeOrder (hs : ∀ m ∈ links, m.Storable) (hm : m ∈ links) (hp : m.pinned = false) {n : Int}
    (hn : m.order = some n) : n ≤ freeOrder links m.categoryId := by
  have hin : n ∈ ordersIn links m.categoryId := by
    refine List.mem_map.mpr ⟨m, List.mem_filter.mpr ⟨hm, by simp [hp]⟩, ?_⟩
    rw [hn]
    rfl
  have hrank : n ≤ maxRank := ((hs m hm).1 n hn).2
  unfold freeOrder
  cases hmax : (ordersIn links m.categoryId).max? with
  | none =>
    rw [List.max?_eq_none_iff.mp hmax] at hin
    cases hin
  | some top =>
    have hle : n ≤ top := (List.max?_le_iff hmax).mp (Int.le_refl top) n hin
    dsimp only
    omega

/-- **A new link is shown last exactly if no key of its category is greater than the order that
is free.** -/
theorem getLast?_inCategory_insert (links : Shelf) (hp : l.pinned = false) :
    (inCategory (insert links l) l.categoryId).getLast? = some (inserted links l) ↔
      ∀ m ∈ inCategory links l.categoryId, m.orderKey ≤ freeOrder links l.categoryId := by
  have hin : (Scope.ofCategory l.categoryId).contains (inserted links l) :=
    contains_ofCategory_iff.mpr ⟨hp, Or.inr rfl⟩
  have hview : inCategory (insert links l) l.categoryId =
      sort (links.filter (Scope.ofCategory l.categoryId).contains ++ [inserted links l]) := by
    unfold inCategory
    rw [insert_of_unpinned links hp, ((sort_shown _).filter _).sort_eq]
    unfold sort
    rw [Sequence.filter_sortBy Link.isPreorder_le, List.filter_append, List.filter_cons_of_pos hin, List.filter_nil]
  rw [hview]
  refine (Sequence.getLast?_sortBy_append_singleton Link.isPreorder_le).trans (forall_congr' fun m => ?_)
  unfold inCategory sort
  rw [Sequence.mem_sortBy]
  refine imp_congr_right fun hm => ?_
  -- both links are unpinned, and the new one has the order that is free
  have hmp : m.pinned = false := (contains_ofCategory_iff.mp (List.mem_filter.mp hm).2).1
  have hlp : (inserted links l).pinned = false := hp
  have hkey : (inserted links l).orderKey = freeOrder links l.categoryId := rfl
  rw [Link.le_iff]
  simp [Link.shownRank, hmp, hlp, hkey]

/-- Only links without an order can be shown behind it. -/
theorem forall_orderKey_le_iff (hs : ∀ m ∈ links, m.Storable) (hc : c ≠ Category.allId) :
    (∀ m ∈ inCategory links c, m.orderKey ≤ freeOrder links c) ↔
      ∀ m ∈ inCategory links c, m.order = none → m.createdAt ≤ freeOrder links c := by
  constructor
  · intro h m hm hnone
    have hkey := h m hm
    rwa [Link.orderKey, hnone] at hkey
  · intro h m hm
    obtain ⟨hmem, hin⟩ := List.mem_filter.mp (Sequence.mem_sortBy.mp hm)
    obtain ⟨hp, hcat⟩ := contains_ofCategory_iff.mp hin
    obtain rfl := hcat.resolve_left hc
    unfold Link.orderKey
    cases hn : m.order with
    | none => exact h m hm hn
    | some n => exact le_freeOrder hs hmem hp hn

end Shelf

namespace Store

variable {s : Store} {supply : Supply} {storage : Storage} {draft : Draft}

/-- What a store comes to when a draft is not rejected. -/
theorem run_addLink_of_accepted
    (h : ∀ e, (s.run supply storage (.addLink draft)).answer = .error e → e.isRetryable = true) :
    ∃ l, draft.toLink (supply.id 0) supply.now (Category.resolve s.categories draft.categoryId) = .ok l ∧
      (s.run supply storage (.addLink draft)).store.links = Shelf.insert s.links l := by
  cases hp : s.collection.perform supply (.addLink draft) with
  | error e =>
    have hretry := h e (by rw [run_of_rejected hp])
    rw [perform_error_not_retryable hp] at hretry
    cases hretry
  | ok effect =>
    obtain ⟨_ | next, reply⟩ := effect
    · obtain ⟨_, _, _, heq, -⟩ | ⟨_, _, heq, -⟩ := Collection.perform_none hp <;> cases heq
    · obtain ⟨links, hadd, rfl⟩ := Collection.linkEffect_eq_ok hp
      obtain ⟨l, hl, rfl⟩ := Shelf.add_eq_ok hadd
      refine ⟨l, hl, ?_⟩
      rw [run_of_change hp]
      rfl

namespace Session

/-- **Where a new link comes to stand.**  A draft that is not pinned is added to a store, and
not rejected.  Its link is in the category that was asked for, or in the common one, beside
the links that were there, with the order that is free; and it is the last that is shown for
this category exactly if no link that was shown there has a greater key.

Where the category is not taken for all of them, this is so exactly if none of its links
that has no order was created later than the order that is free. -/
theorem new_link_shown_last_iff {s : Session} (h : InRange s) {draft : Draft} (hp : draft.pinned = false)
    (supply : Supply) (refusesReads refusesWrites : Bool)
    (haccepted : ∀ e, (s.store.run supply { s.storage with refusesReads, refusesWrites } (.addLink draft)).answer =
      .error e → e.isRetryable = true) :
    let added := (s.store.run supply { s.storage with refusesReads, refusesWrites } (.addLink draft)).store
    let category := Category.resolve s.store.categories draft.categoryId
    let free := Shelf.freeOrder s.store.links category
    ∃ l, l.id = supply.id 0 ∧ l.categoryId = category ∧ l.pinned = false ∧ l.order = some free ∧
      added.links.Perm (l :: s.store.links) ∧
      ((added.view category).getLast? = some l ↔ ∀ m ∈ s.store.view category, m.orderKey ≤ free) ∧
      (category ≠ "all" → ((added.view category).getLast? = some l ↔
        ∀ m ∈ s.store.view category, m.order = none → m.createdAt ≤ free)) := by
  intro added category free
  obtain ⟨l, hl, hlinks⟩ := run_addLink_of_accepted haccepted
  obtain ⟨url, title, hl⟩ := Draft.toLink_eq_ok hl
  have hlp : l.pinned = false := by rw [hl]; exact hp
  have hcat : l.categoryId = category := by rw [hl]
  have hid : l.id = supply.id 0 := by rw [hl]
  have hlast : (added.view category).getLast? = some (Shelf.inserted s.store.links l) ↔
      ∀ m ∈ s.store.view category, m.orderKey ≤ free := by
    have := Shelf.getLast?_inCategory_insert s.store.links hlp
    rw [hcat] at this
    rw [Store.view, show added.links = _ from hlinks]
    exact this
  refine ⟨Shelf.inserted s.store.links l, hid, hcat, hlp, ?_, ?_, hlast, fun hall => hlast.trans ?_⟩
  · show some (Shelf.freeOrder s.store.links l.categoryId) = some free
    rw [hcat]
  · rw [show added.links = _ from hlinks]
    exact Shelf.insert_perm s.store.links l
  · exact Shelf.forall_orderKey_le_iff h.storable hall

/-- A second unpinned link of a category, which comes after the first one. -/
theorem new_link_shown_after_seeded_ones :
    let supply : Supply := ⟨fun _ => "5b1e7c02-93d4-4f6a-8c1d-000000000000", 7, Supply.cut 16 [], Supply.cut 12 []⟩
    let draft : Draft := ⟨"lean-lang.org", "Lean", none, some "design", none, false⟩
    let s := opened Storage.empty
    let added := (s.store.run supply s.storage (.addLink draft)).store
    ((added.view "design").getLast?).map (·.id) = some "5b1e7c02-93d4-4f6a-8c1d-000000000000" := by
  intro supply draft s added
  have hrange : InRange s := .opened Storage.empty (by decide)
  have haccepted :
      ∀ e, (s.store.run supply s.storage (.addLink draft)).answer = .error e → e.isRetryable = true := by
    have hok : (s.store.run supply s.storage (.addLink draft)).answer = .ok (.created (supply.id 0)) := by decide
    rw [hok]
    exact nofun
  obtain ⟨l, hid, -, -, -, -, -, hlast⟩ := new_link_shown_last_iff hrange rfl supply false false haccepted
  have hshown := (hlast (by decide)).mpr (by decide)
  rw [show Category.resolve s.store.categories draft.categoryId = "design" by decide] at hshown
  rw [show (added.view "design").getLast? = some l from hshown, Option.map_some, hid]

/-- A link that came in without an order stays behind the links that are added after it. -/
theorem not_every_new_link_shown_last :
    ¬ ∀ (s : Session) (supply : Supply) (draft : Draft), InRange s → draft.pinned = false →
      let outcome := s.store.run supply s.storage (.addLink draft)
      (∃ reply, outcome.answer = .ok reply) →
      ((outcome.store.view (Category.resolve s.store.categories draft.categoryId)).getLast?).map (·.id) =
        some (supply.id 0) := by
  intro h
  let link : Link := ⟨"old", "https://a.example", "A", none, "dev", none, false, none, none, 1700000000000⟩
  let supply : Supply :=
    ⟨fun _ => "5b1e7c02-93d4-4f6a-8c1d-000000000000", 1700000000001, Supply.cut 16 [], Supply.cut 12 []⟩
  let imported : Event := ⟨.command supply (.importData [link] []), false, false⟩
  have hrange : InRange ((opened Storage.empty).step imported) := by
    refine .step (.opened Storage.empty (by decide)) ⟨?_, ?_⟩ (by decide)
    · rintro _ ⟨⟩
      decide
    · rintro _ _ ⟨⟩
      show ∀ l ∈ [link], l.Storable
      decide
  have hlast := h _ supply ⟨"lean-lang.org", "Lean", none, some "dev", none, false⟩ hrange rfl
    ⟨.created (supply.id 0), by decide⟩
  exact absurd hlast (by decide)

end Session

end Store

end Bookmarks
