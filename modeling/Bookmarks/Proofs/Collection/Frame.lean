import Bookmarks.Proofs.Collection.Again
import Bookmarks.Proofs.Shelf.Frame
import Mathlib.Algebra.Order.Group.Multiset
import Mathlib.Tactic.Abel

/-! # What commands leave alone

A command is aimed at one link at most (`Command.target?`), may take one link out
(`Command.removed?`) and may bring links in (`Command.Brings`).  **All other links stay**:
they can be paired with those of before, and `Spared` lists what the links of a pair have in
common.

The pairs are those of `Multiset.Rel`, so that nothing is assumed of the ids, which may be
shared by several links: the link that is taken out or aimed at is the first one of its id.
-/
namespace Bookmarks

/-! ## What a command is about -/

namespace Command

/-- The link that a command takes out. -/
def removed? (links : Shelf) : Command → Option Link
  | .deleteLink id => links.find? (·.id == id)
  | _ => none

/-- The link that a command is aimed at, and leaves there. -/
def target? (links : Shelf) : Command → Option Link
  | .updateLink u => links.find? (·.id == u.id)
  | .togglePin id => links.find? (·.id == id)
  | _ => none

/-- The category that a command deletes. -/
def deletedCategory? : Command → Option String
  | .deleteCategory id => some id
  | _ => none

/-- Whether a command rewrites the link that it is aimed at. -/
def rewrites : Command → Bool
  | .updateLink _ => true
  | _ => false

/-- Whether a command pins or unpins the link that it is aimed at. -/
def turns (l : Link) : Command → Bool
  | .togglePin _ => true
  | .updateLink u => u.changesPin l
  | _ => false

/-- A command puts a scope in another order, and the link is in that scope. -/
def Reranks (links : Shelf) (l : Link) : Command → Prop
  | .reorderLinks activeId overId categoryId =>
    Shelf.reorder links activeId overId (Scope.ofCategory categoryId) ≠ links ∧
      (Scope.ofCategory categoryId).contains l = true
  | _ => False

/-- These links are what a command brings in: a link with a drawn id and the time, if the
draft is that of a link; as many as there are links with an address and a title among those
from elsewhere; and for any other command none. -/
def Brings (supply : Supply) (c : Collection) (added : Multiset Link) : Command → Prop
  | .addLink draft =>
    match draft.toLink (supply.id 0) supply.now (Category.resolve c.categories draft.categoryId) with
    | .ok _ => ∃ l, added = {l} ∧ l.id = supply.id 0 ∧ l.createdAt = supply.now
    | .error _ => added = 0
  | .importData links _ => added.card = (links.filterMap Collection.sanitize).length
  | _ => added = 0

end Command

/-- What a command leaves of a link `l` that is `m` afterwards, where it may be aimed at the
link or not. -/
structure Spared (links : Shelf) (command : Command) (aimed : Bool) (l m : Link) : Prop where
  id : m.id = l.id
  createdAt : m.createdAt = l.createdAt
  texts : ¬ (aimed = true ∧ command.rewrites = true) →
    m.url = l.url ∧ m.title = l.title ∧ m.description = l.description ∧ m.icon = l.icon
  category : ¬ (aimed = true ∧ command.rewrites = true) →
    m.categoryId = if command.deletedCategory? = some l.categoryId then Category.commonId else l.categoryId
  pinned : ¬ (aimed = true ∧ command.turns l = true) → m.pinned = l.pinned
  order : ¬ command.Reranks links l → m.order = l.order

section
variable {links : Shelf} {command : Command} {l m : Link} {aimed : Bool}

/-- A link that stays as it is is spared by any command but the one that deletes its
category. -/
theorem spared_self (hcategory : command.deletedCategory? = some l.categoryId → l.categoryId = Category.commonId) :
    Spared links command aimed l l := by
  refine ⟨rfl, rfl, fun _ => ⟨rfl, rfl, rfl, rfl⟩, fun _ => ?_, fun _ => rfl, fun _ => rfl⟩
  split
  · next hdelete => exact hcategory hdelete
  · rfl

theorem spared_self_of_none (hcategory : command.deletedCategory? = none) : Spared links command aimed l l :=
  spared_self fun hdelete => by
    rw [hcategory] at hdelete
    cases hdelete

/-- Ranks among the pins do not matter. -/
theorem Spared.of_same {m' : Link} (h : Spared links command aimed l m) (hm : Shelf.SameButPinRank m m') :
    Spared links command aimed l m' := by
  rw [show m' = _ from hm]
  exact ⟨h.id, h.createdAt, h.texts, h.category, h.pinned, h.order⟩

theorem rel_spared_of_same {s t : Multiset Link} (h : Multiset.Rel Shelf.SameButPinRank s t)
    (hcategory : command.deletedCategory? = none) : Multiset.Rel (Spared links command aimed) s t :=
  h.mono fun _ _ _ _ hlm => (spared_self_of_none hcategory).of_same hlm

/-! ### What commands do to a link -/

theorem spared_edited {categories : List Category} {u : Update} {edited : Link}
    (h : Collection.edit categories u l = .ok edited) :
    Spared links (.updateLink u) true l (if u.changesPin l then Shelf.turned edited else edited) := by
  obtain ⟨url, title, rfl⟩ := Collection.edit_eq_ok h
  have haimed : true = true ∧ (Command.updateLink u).rewrites = true := ⟨rfl, rfl⟩
  cases hpin : u.changesPin l with
  | true => exact {
      id := rfl
      createdAt := rfl
      texts hno := absurd haimed hno
      category hno := absurd haimed hno
      pinned hno := absurd ⟨rfl, hpin⟩ hno
      order _ := rfl }
  | false => exact {
      id := rfl
      createdAt := rfl
      texts hno := absurd haimed hno
      category hno := absurd haimed hno
      pinned _ := rfl
      order _ := rfl }

theorem spared_turned (links : Shelf) (id : String) (l : Link) :
    Spared links (.togglePin id) true l (Shelf.turned l) where
  id := rfl
  createdAt := rfl
  texts _ := ⟨rfl, rfl, rfl, rfl⟩
  category _ := rfl
  pinned hno := absurd ⟨rfl, rfl⟩ hno
  order _ := rfl

theorem spared_ranked {activeId overId categoryId : String}
    (hne : Shelf.reorder links activeId overId (Scope.ofCategory categoryId) ≠ links)
    (hin : (Scope.ofCategory categoryId).contains l = true) (k : Nat) :
    Spared links (.reorderLinks activeId overId categoryId) aimed l { l with order := some k } where
  id := rfl
  createdAt := rfl
  texts _ := ⟨rfl, rfl, rfl, rfl⟩
  category _ := rfl
  pinned _ := rfl
  order hno := absurd ⟨hne, hin⟩ hno

theorem spared_moveOut (links : Shelf) (aimed : Bool) (id : String) (l : Link) :
    Spared links (.deleteCategory id) aimed l (Collection.moveOut id l) := by
  unfold Collection.moveOut
  by_cases hmoved : l.categoryId = id
  · rw [if_pos hmoved]
    have hdeleted : (Command.deleteCategory id).deletedCategory? = some l.categoryId := congrArg some hmoved.symm
    exact {
      id := rfl
      createdAt := rfl
      texts _ := ⟨rfl, rfl, rfl, rfl⟩
      category _ := (if_pos hdeleted).symm
      pinned _ := rfl
      order _ := rfl }
  · rw [if_neg hmoved]
    exact spared_self fun hdeleted => absurd (Option.some.inj hdeleted).symm hmoved

end

namespace Collection

variable {c next : Collection} {supply : Supply} {command : Command} {added : Multiset Link}

/-- One link, or none. -/
def atMost (l : Option Link) : Multiset Link := (l.toList : List Link)

@[simp] theorem atMost_none : atMost none = 0 := rfl

@[simp] theorem atMost_some (l : Link) : atMost (some l) = {l} := rfl

/-- All links of a collection other than those that a command takes out or brings in are
there before and after: the link that it is aimed at, if there is one, is `aimed` then, and
the rest are the `others`. -/
def Frame (c : Collection) (command : Command) (next : Collection) (added : Multiset Link) : Prop :=
  ∃ rest aimed others : Multiset Link,
    (c.links : Multiset Link) = atMost (command.removed? c.links) + atMost (command.target? c.links) + rest ∧
    (next.links : Multiset Link) = added + aimed + others ∧
    Multiset.Rel (Spared c.links command true) (atMost (command.target? c.links)) aimed ∧
    Multiset.Rel (Spared c.links command false) rest others

/-- The id and the time of creation of a link. -/
def stamp (l : Link) : String × Int := (l.id, l.createdAt)

theorem map_stamp_eq {links : Shelf} {aimed : Bool} {s t : Multiset Link}
    (h : Multiset.Rel (Spared links command aimed) s t) : s.map stamp = t.map stamp := by
  refine Multiset.rel_eq.mp (Multiset.rel_map.mpr (h.mono fun l _ m _ hlm => ?_))
  rw [stamp, stamp, hlm.id, hlm.createdAt]

/-- **The ids and times change by those of the links that come and go.** -/
theorem Frame.map_stamp (h : Frame c command next added) :
    (next.links : Multiset Link).map stamp + (atMost (command.removed? c.links)).map stamp =
      (c.links : Multiset Link).map stamp + added.map stamp := by
  obtain ⟨rest, aimed, others, hbefore, hafter, haimed, hothers⟩ := h
  rw [hbefore, hafter]
  simp only [Multiset.map_add, map_stamp_eq haimed, map_stamp_eq hothers]
  abel

/-- Besides the first link of an id there are the others. -/
theorem exists_rest_of_find? (links : Shelf) (id : String) :
    ∃ rest : Multiset Link, (links : Multiset Link) = atMost (links.find? (·.id == id)) + rest := by
  cases hl : links.find? (·.id == id) with
  | none => exact ⟨links, (Multiset.zero_add _).symm⟩
  | some l =>
    refine ⟨links.eraseP (·.id == id), ?_⟩
    rw [atMost_some, Multiset.singleton_add]
    exact Shelf.coe_eq_cons_eraseP hl

/-- A command that takes no link out is aimed at one of the links, or at none. -/
theorem exists_rest {links : Shelf} (h : command.removed? links = none) :
    ∃ rest : Multiset Link, (links : Multiset Link) = atMost (command.target? links) + rest := by
  have hnone : ∃ rest : Multiset Link, (links : Multiset Link) = atMost none + rest :=
    ⟨links, (Multiset.zero_add _).symm⟩
  cases command with
  | updateLink u => exact exists_rest_of_find? links u.id
  | togglePin id => exact exists_rest_of_find? links id
  | _ => exact hnone

/-- Where the links stay as they are, nothing comes or goes. -/
theorem frame_of_links_eq (hlinks : next.links = c.links) (hremoved : command.removed? c.links = none)
    (hcategory : ∀ l ∈ c.links, command.deletedCategory? = some l.categoryId → l.categoryId = Category.commonId) :
    Frame c command next 0 := by
  obtain ⟨rest, hrest⟩ := exists_rest hremoved
  have hrefl : ∀ aimed, ∀ l ∈ atMost (command.target? c.links) + rest, Spared c.links command aimed l l := by
    intro aimed l hl
    rw [← hrest] at hl
    exact spared_self (hcategory l hl)
  refine ⟨rest, atMost (command.target? c.links), rest, ?_, ?_, ?_, ?_⟩
  · rw [hremoved, hrest]
    rfl
  · rw [hlinks, hrest, Multiset.zero_add]
  · exact Multiset.rel_refl_of_refl_on fun l hl => hrefl true l (Multiset.mem_add.mpr (Or.inl hl))
  · exact Multiset.rel_refl_of_refl_on fun l hl => hrefl false l (Multiset.mem_add.mpr (Or.inr hl))

theorem frame_of_no_category (hlinks : next.links = c.links) (hremoved : command.removed? c.links = none)
    (hcategory : command.deletedCategory? = none) : Frame c command next 0 := by
  refine frame_of_links_eq hlinks hremoved fun l _ hdelete => ?_
  rw [hcategory] at hdelete
  cases hdelete

/-! ## Commands on links -/

theorem frame_addLink (c : Collection) (draft : Draft) (l : Link) :
    Frame c (.addLink draft) (c.withLinks (Shelf.insert c.links l)) {Shelf.inserted c.links l} := by
  refine ⟨c.links, 0, c.links, ?_, ?_, Multiset.rel_zero_left.mpr rfl, ?_⟩
  · exact (Multiset.zero_add _).symm
  · exact Multiset.coe_eq_coe.mpr (Shelf.insert_perm c.links l)
  · exact rel_spared_of_same (Shelf.rel_same_refl _) rfl

/-- A command is aimed at a link, and pairs the others. -/
theorem frame_of_target {l m : Link} {rest others : Multiset Link} (hremoved : command.removed? c.links = none)
    (htarget : command.target? c.links = some l) (hlinks : (c.links : Multiset Link) = l ::ₘ rest)
    (hnext : (next.links : Multiset Link) = m ::ₘ others) (hm : Spared c.links command true l m)
    (hothers : Multiset.Rel (Spared c.links command false) rest others) : Frame c command next 0 := by
  refine ⟨rest, {m}, others, ?_, ?_, ?_, hothers⟩
  · rw [hremoved, htarget, atMost_none, atMost_some, Multiset.zero_add, Multiset.singleton_add]
    exact hlinks
  · rw [Multiset.zero_add, Multiset.singleton_add]
    exact hnext
  · rw [htarget]
    exact Multiset.Rel.cons hm Multiset.Rel.zero

theorem frame_updateLink {u : Update} {links : Shelf} (h : Shelf.update c.links u (edit c.categories u) = .ok links) :
    Frame c (.updateLink u) (c.withLinks links) 0 := by
  obtain ⟨l, edited, -, hl, he, -⟩ := Shelf.update_eq_ok h
  obtain ⟨m, others, hnext, hm, hothers⟩ := Shelf.rel_update hl he ((edit_settles c.categories u).id l edited he) h
  exact frame_of_target rfl hl (Shelf.coe_eq_cons_eraseP hl) hnext ((spared_edited he).of_same hm)
    (rel_spared_of_same hothers rfl)

theorem frame_togglePin {id : String} {links : Shelf} (h : Shelf.togglePin? c.links id = some links) :
    Frame c (.togglePin id) (c.withLinks links) 0 := by
  obtain ⟨flipped, hflipped, -⟩ := Option.map_eq_some_iff.mp h
  obtain ⟨l, hl⟩ := Sequence.find?_of_modifyFirst? hflipped
  obtain ⟨m, others, hnext, hm, hothers⟩ := Shelf.rel_togglePin? hl h
  exact frame_of_target rfl hl (Shelf.coe_eq_cons_eraseP hl) hnext ((spared_turned c.links id l).of_same hm)
    (rel_spared_of_same hothers rfl)

theorem frame_deleteLink {id : String} {links : Shelf} (h : Shelf.remove? c.links id = some links) :
    Frame c (.deleteLink id) (c.withLinks links) 0 := by
  obtain ⟨l, hl, hothers⟩ := Shelf.rel_remove? h
  have hremoved : (Command.deleteLink id).removed? c.links = some l := hl
  refine ⟨c.links.eraseP (·.id == id), 0, links, ?_, ?_, Multiset.rel_zero_left.mpr rfl,
    rel_spared_of_same hothers rfl⟩
  · rw [hremoved]
    exact Shelf.coe_eq_cons_eraseP hl
  · rw [Multiset.zero_add, Multiset.zero_add]
    rfl

/-- A command that is not aimed at a link, and takes none out, pairs all of them. -/
theorem frame_of_rel {others : Multiset Link} (hremoved : command.removed? c.links = none)
    (htarget : command.target? c.links = none) (hnext : (next.links : Multiset Link) = added + others)
    (hothers : Multiset.Rel (Spared c.links command false) c.links others) : Frame c command next added := by
  refine ⟨c.links, 0, others, ?_, ?_, ?_, hothers⟩
  · rw [hremoved, htarget, atMost_none, Multiset.zero_add, Multiset.zero_add]
  · rw [Multiset.add_zero]
    exact hnext
  · rw [htarget]
    exact Multiset.Rel.zero

theorem frame_reorderLinks (c : Collection) (activeId overId categoryId : String) :
    Frame c (.reorderLinks activeId overId categoryId)
      (c.withLinks (Shelf.reorder c.links activeId overId (Scope.ofCategory categoryId))) 0 := by
  by_cases heq : Shelf.reorder c.links activeId overId (Scope.ofCategory categoryId) = c.links
  · exact frame_of_no_category heq rfl rfl
  · refine frame_of_rel rfl rfl (Multiset.zero_add _).symm ?_
    refine (Shelf.rel_reorder c.links activeId overId (Scope.ofCategory categoryId)).mono fun l _ m _ hlm => ?_
    rcases hlm with rfl | ⟨hin, k, rfl⟩
    · exact spared_self_of_none rfl
    · rw [Shelf.withRank_ofCategory]
      exact spared_ranked heq hin k

theorem frame_reorderPinned (c : Collection) (activeId overId : String) :
    Frame c (.reorderPinned activeId overId) (c.withLinks (Shelf.reorder c.links activeId overId .pinned)) 0 := by
  refine frame_of_rel rfl rfl (Multiset.zero_add _).symm (rel_spared_of_same ?_ rfl)
  refine (Shelf.rel_reorder c.links activeId overId .pinned).mono fun l _ m _ hlm => ?_
  rcases hlm with rfl | ⟨-, k, rfl⟩ <;> rfl

/-! ## Commands on categories -/

theorem frame_deleteCategory (c : Collection) (id : String) (categories : List Category) :
    Frame c (.deleteCategory id) ⟨c.links.map (moveOut id), categories⟩ 0 := by
  refine frame_of_rel rfl rfl (Multiset.zero_add _).symm ?_
  rw [← Multiset.map_coe, Multiset.rel_map_right]
  exact Multiset.rel_refl_of_refl_on fun l _ => spared_moveOut c.links false id l

/-! ## Merging -/

/-- **Of links from elsewhere as many come in as there are**, and the links that were there
stay. -/
theorem InOrder.frame_importData (h : c.InOrder) (fresh : Nat → String) (links incoming : List Link)
    (categories : List Category) :
    ∃ added, added.card = incoming.length ∧
      Frame c (.importData links categories) (c.merge fresh incoming categories).collection added := by
  let all := (Admission.takeInAll c.categories categories).categories
  have hlinks : (c.merge fresh incoming categories).collection.links =
      Shelf.sort (Shelf.compactPins (c.links ++ Shelf.adoptOrphans all (c.incoming fresh incoming categories))) := by
    show Shelf.sort (Shelf.compactPins (Shelf.adoptOrphans all
      (Shelf.compactPins c.links ++ c.incoming fresh incoming categories))) = _
    unfold Shelf.adoptOrphans
    rw [h.arranged.counted.compactPins_eq, List.map_append]
    rw [show c.links.map (Shelf.adopt all) = c.links from (h.knownIn_takeInAll categories).adoptOrphans_eq]
  have hrel := Shelf.rel_sort_compactPins (c.links ++ Shelf.adoptOrphans all (c.incoming fresh incoming categories))
  rw [← hlinks, ← Multiset.coe_add] at hrel
  obtain ⟨others, added, hothers, hadded, hnext⟩ := Multiset.rel_add_left.mp hrel
  refine ⟨added, ?_, frame_of_rel rfl rfl ?_ (rel_spared_of_same hothers rfl)⟩
  · rw [← Multiset.card_eq_card_of_rel hadded, Multiset.coe_card]
    unfold Shelf.adoptOrphans
    rw [List.length_map, length_incoming]
  · rw [hnext, Multiset.add_comm]

/-! ## All commands -/

/-- **A command that leads anywhere brings in what it is to bring in, and leaves the
other links alone.** -/
theorem InOrder.frame_change (h : c.InOrder) (hchange : Change supply c command next) :
    ∃ added, command.Brings supply c added ∧ Frame c command next added := by
  cases hchange with
  | @addLink draft l hl =>
    refine ⟨_, ?_, frame_addLink c draft l⟩
    simp only [Command.Brings, hl]
    obtain ⟨url, title, rfl⟩ := Draft.toLink_eq_ok hl
    exact ⟨_, rfl, rfl, rfl⟩
  | updateLink hu => exact ⟨0, rfl, frame_updateLink hu⟩
  | deleteLink hd => exact ⟨0, rfl, frame_deleteLink hd⟩
  | togglePin ht => exact ⟨0, rfl, frame_togglePin ht⟩
  | reorderLinks activeId overId categoryId => exact ⟨0, rfl, frame_reorderLinks c activeId overId categoryId⟩
  | reorderPinned activeId overId => exact ⟨0, rfl, frame_reorderPinned c activeId overId⟩
  | addCategory _ _ => exact ⟨0, rfl, frame_of_no_category rfl rfl rfl⟩
  | updateCategory _ _ => exact ⟨0, rfl, frame_of_no_category rfl rfl rfl⟩
  | deleteCategory _ _ => exact ⟨0, rfl, frame_deleteCategory c _ _⟩
  | importData links categories => exact h.frame_importData supply.id links (links.filterMap sanitize) categories

/-- A command that is rejected brings nothing in, and would have been about no link. -/
theorem InOrder.frame_rejected (h : c.InOrder) {e : StoreError} (hp : c.perform supply command = .error e) :
    command.Brings supply c 0 ∧ Frame c command c 0 := by
  cases command with
  | addLink draft =>
    refine ⟨?_, frame_of_no_category rfl rfl rfl⟩
    cases hl : draft.toLink (supply.id 0) supply.now (Category.resolve c.categories draft.categoryId) with
    | error reason => simp only [Command.Brings, hl]
    | ok l =>
      simp only [Collection.perform, Shelf.add, hl] at hp
      cases hp
  | deleteLink id =>
    refine ⟨rfl, frame_of_no_category rfl ?_ rfl⟩
    cases hl : c.links.find? (·.id == id) with
    | none => exact hl
    | some l =>
      simp only [Collection.perform, Shelf.delete, Shelf.remove?, hl] at hp
      cases hp
  | deleteCategory id =>
    refine ⟨rfl, frame_of_links_eq rfl rfl fun l hl hdelete => ?_⟩
    have hid : id = l.categoryId := Option.some.inj hdelete
    subst hid
    by_contra hcommon
    simp only [Collection.perform, Collection.deleteCategory, if_neg hcommon, h.known l hl] at hp
    cases hp
  | updateLink _ => exact ⟨rfl, frame_of_no_category rfl rfl rfl⟩
  | togglePin _ => exact ⟨rfl, frame_of_no_category rfl rfl rfl⟩
  | addCategory _ _ => exact ⟨rfl, frame_of_no_category rfl rfl rfl⟩
  | updateCategory _ => exact ⟨rfl, frame_of_no_category rfl rfl rfl⟩
  | reorderLinks _ _ _ => cases hp
  | reorderPinned _ _ => cases hp
  | importData _ _ => cases hp

theorem frame_no_change {reply : Reply} (hp : c.perform supply command = .ok ⟨none, reply⟩) :
    command.Brings supply c 0 ∧ Frame c command c 0 := by
  rcases perform_none hp with ⟨activeId, overId, categoryId, rfl, -⟩ | ⟨activeId, overId, rfl, -⟩
  · exact ⟨rfl, frame_of_no_category rfl rfl rfl⟩
  · exact ⟨rfl, frame_of_no_category rfl rfl rfl⟩

/-- An import answers how many links it has brought in. -/
theorem card_of_imported {effect : Effect} (hp : c.perform supply command = .ok effect) {summary : ImportSummary}
    (hreply : effect.reply = .imported summary) (hadded : command.Brings supply c added) :
    added.card = summary.linksAdded := by
  -- no other command answers an import
  have hlink : ∀ (reply : Reply) (r : Except LinkError Shelf), c.linkEffect reply r = .ok effect →
      reply = .imported summary := by
    intro reply r hr
    cases r with
    | error e => cases hr
    | ok links =>
      obtain rfl := Except.ok.inj hr
      exact hreply
  have horder : ∀ links : Shelf, c.orderEffect links = effect → Reply.done = .imported summary := by
    rintro links rfl
    rw [← hreply]
    unfold orderEffect
    split <;> rfl
  cases command with
  | addLink _ => cases hlink _ _ hp
  | updateLink _ => cases hlink _ _ hp
  | deleteLink _ => cases hlink _ _ hp
  | togglePin _ => cases hlink _ _ hp
  | reorderLinks _ _ _ => cases horder _ (Except.ok.inj hp)
  | reorderPinned _ _ => cases horder _ (Except.ok.inj hp)
  | addCategory name icon =>
    simp only [Collection.perform] at hp
    split at hp
    · cases hp
    · cases hp
      cases hreply
  | updateCategory category =>
    simp only [Collection.perform] at hp
    split at hp
    · cases hp
    · split at hp <;> cases hp
      cases hreply
  | deleteCategory id =>
    simp only [Collection.perform] at hp
    split at hp <;> cases hp
    cases hreply
  | importData links categories =>
    obtain rfl := Except.ok.inj hp
    obtain rfl := Reply.imported.inj hreply
    exact hadded

end Collection

end Bookmarks
