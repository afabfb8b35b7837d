import Bookmarks.Proofs.Shelf.Frame
import Bookmarks.Proofs.Shelf.Turned
import Bookmarks.Proofs.Store.Retry

/-! # Updating a link of a store

An update is an edit of one link, which leaves the link in its place, and then perhaps the
pinning or unpinning of that link among the edited ones.  Of links with distinct ids the one
with the id of the update is edited and no other (`modifyFirst?_eq_map`), so what an update does
is read off the edit (`Collection.edit_eq_ok_elim`) and off what pinning does
(`update_edits_one_link`).
-/
namespace Bookmarks

/-- What an edit makes of a link, field by field. -/
theorem Collection.edit_eq_ok_elim {categories : List Category} {u : Update} {l m : Link}
    (h : edit categories u l = .ok m) : ∃ url, Url.normalize (u.url.getD l.url) = some url ∧ m = { l with
      url
      title := u.title.elim l.title Text.trim
      description := u.description.elim l.description fun text => if text = "" then none else some text
      icon := u.icon.elim l.icon fun text => if text = "" then none else some text
      categoryId := u.categoryId.elim l.categoryId fun id =>
        if ∃ c ∈ categories, c.id = id then id else "common" } := by
  obtain ⟨url, title, hurl, htitle, rfl⟩ := edit_eq_ok_iff.mp h
  have hnormal : Url.normalize (u.url.getD l.url) = some url := by
    unfold acceptUrl at hurl
    split at hurl
    · next normal hnormal => rw [hnormal, Except.ok.inj hurl]
    · cases hurl
  have htitle : title = u.title.elim l.title Text.trim := by
    unfold Update.acceptedTitle at htitle
    cases hgiven : u.title with
    | none =>
      rw [hgiven] at htitle
      exact (Except.ok.inj htitle).symm
    | some given =>
      rw [hgiven] at htitle
      unfold acceptTitle at htitle
      dsimp only at htitle
      split at htitle
      · cases htitle
      · exact (Except.ok.inj htitle).symm
  have hreplaced : ∀ given old : Option String, Update.replaced given old =
      given.elim old fun text => if text = "" then none else some text := by
    intro given old
    cases given <;> rfl
  refine ⟨url, hnormal, ?_⟩
  rw [htitle, hreplaced, hreplaced]
  cases u.categoryId with
  | none => rfl
  | some id =>
    have hcategory : Category.resolve categories (some id) =
        if ∃ c ∈ categories, c.id = id then id else "common" := if_congr Category.isKnown_iff rfl rfl
    rw [Option.elim_some, ← hcategory]

theorem Update.changesPin_eq (u : Update) (l : Link) :
    u.changesPin l = (u.pinned.getD l.pinned != l.pinned) := by
  unfold changesPin
  cases u.pinned with
  | none => exact (bne_self_eq_false l.pinned).symm
  | some p => rfl

namespace Shelf

variable {links next changed : Shelf} {old edited : Link} {id : String}

/-- The links with the one of an id replaced. -/
def withEdited (links : Shelf) (id : String) (edited : Link) : Shelf :=
  links.map fun l => if l.id = id then edited else l

theorem id_ne_of_mem_without {l : Link} (h : l ∈ without links id) : l.id ≠ id :=
  bne_iff_ne.mp (List.mem_filter.mp h).2

/-- **Of links with distinct ids the one with the id is changed, and no other.** -/
theorem modifyFirst?_eq_map (hids : (links.map (·.id)).Nodup) (hold : old ∈ links)
    (h : Sequence.modifyFirst? (·.id == old.id) (fun _ => edited) links = some changed) :
    changed = withEdited links old.id edited := by
  obtain ⟨before, after, rfl, hwithout, hbefore⟩ := exists_split hids hold
  -- the links before and behind have other ids
  have hkept : ∀ xs ⊆ before ++ after, withEdited xs old.id edited = xs := by
    intro xs hxs
    refine (List.map_congr_left fun l hl => ?_).trans (List.map_id xs)
    exact if_neg (id_ne_of_mem_without (hwithout ▸ hxs hl))
  have hnone : ∀ m ∈ before, ¬ (m.id == old.id) := by
    intro m hm
    simpa using hbefore m hm
  have hself : old.id == old.id := beq_self_eq_true old.id
  rw [Sequence.modifyFirst?_append _ hnone hself, Option.some.injEq] at h
  have hsplit : withEdited (before ++ old :: after) old.id edited =
      withEdited before old.id edited ++ edited :: withEdited after old.id edited := by
    unfold withEdited
    rw [List.map_append, List.map_cons, if_pos rfl]
  rw [← h, hsplit, hkept before (List.subset_append_left _ _), hkept after (List.subset_append_right _ _)]

theorem without_withEdited (hid : edited.id = id) (links : Shelf) :
    without (withEdited links id edited) id = without links id := by
  have hfilter : without (withEdited links id edited) id =
      (without links id).map fun l => if l.id = id then edited else l := by
    refine Sequence.filter_map_of_eq (fun l => ?_) links
    split
    · next hl => rw [hid, hl]
    · rfl
  rw [hfilter]
  refine (List.map_congr_left fun l hl => ?_).trans (List.map_id _)
  exact if_neg (id_ne_of_mem_without hl)

theorem ids_withEdited (hid : edited.id = id) (links : Shelf) :
    (withEdited links id edited).map (·.id) = links.map (·.id) := by
  unfold withEdited
  rw [List.map_map]
  refine List.map_congr_left fun l _ => ?_
  show (if l.id = id then edited else l).id = l.id
  split
  · next hl => rw [hid, hl]
  · rfl

/-- A link that is edited without leaving its place leaves a shelf arranged. -/
theorem Arranged.withEdited (h : Arranged links) (hids : (links.map (·.id)).Nodup) (hold : old ∈ links)
    (hpin : pinState edited = pinState old) (hkey : edited.orderKey = old.orderKey) :
    Arranged (withEdited links old.id edited) := by
  have hsame : ∀ {α : Type} (f : Link → α), f edited = f old →
      links.map f = (Shelf.withEdited links old.id edited).map f := by
    intro α f hf
    unfold Shelf.withEdited
    rw [List.map_map]
    refine List.map_congr_left fun l hl => ?_
    show f l = f (if l.id = old.id then edited else l)
    split
    · next hid => rw [hf, List.inj_on_of_nodup_map hids hl hold hid]
    · rfl
  exact h.of_place_eq (hsame pinState hpin) (hsame Link.orderKey hkey)

section
variable {u : Update} {edit : Link → Except InvalidLink Link} (hedit : Settles edit)
  (hu : update links u edit = .ok next)
include hedit hu

/-- An update of a link among links with distinct ids: the link is edited in its place, and
pinned or unpinned there if the update asks for the other state. -/
theorem update_eq_withEdited (hids : (links.map (·.id)).Nodup) :
    ∃ old edited, links.find? (·.id == u.id) = some old ∧ edit old = .ok edited ∧
      (u.pinned.getD old.pinned = old.pinned → next = withEdited links u.id edited) ∧
      (u.pinned.getD old.pinned ≠ old.pinned → togglePin? (withEdited links u.id edited) u.id = some next) := by
  obtain ⟨old, edited, -, hold, he, -⟩ := update_eq_ok hu
  obtain ⟨changed, hchanged, heq⟩ := update_eq hold he
  have hid : old.id = u.id := id_of_find? hold
  obtain ⟨toggled, htoggled⟩ := togglePin?_of_find? (hedit.find?_changed hold he hchanged)
  have hsame : changed = withEdited links u.id edited := by
    rw [← hid] at hchanged ⊢
    exact modifyFirst?_eq_map hids (List.mem_of_find?_eq_some hold) hchanged
  rw [hu, hsame] at heq
  rw [hsame] at htoggled
  simp only [Update.changesPin_eq, bne_iff_ne] at heq
  refine ⟨old, edited, hold, he, fun hpin => ?_, fun hpin => ?_⟩
  · rw [if_neg (not_not_intro hpin)] at heq
    exact Except.ok.inj heq
  · rw [if_pos hpin, htoggled] at heq
    rw [htoggled, Except.ok.inj heq, Option.getD_some]

/-- Among the links there is the edited one then, pinned or not as it was asked for. -/
theorem exists_updated (hold : links.find? (·.id == u.id) = some old) (he : edit old = .ok edited) :
    ∃ target ∈ next,
      target = { edited with pinned := u.pinned.getD old.pinned, pinnedOrder := target.pinnedOrder } := by
  obtain ⟨target, others, hnext, htarget, -⟩ := rel_update hold he (hedit.id old edited he) hu
  have hmem : target ∈ next := Multiset.mem_coe.mp (hnext ▸ Multiset.mem_cons_self target others)
  have hpinned : edited.pinned = old.pinned := hedit.pinned he
  have hasked : (if u.changesPin old then turned edited else edited) =
      { edited with pinned := u.pinned.getD old.pinned } := by
    simp only [Update.changesPin_eq, bne_iff_ne]
    split
    · next hpin =>
      unfold turned
      rw [hpinned, Bool.eq_not.mpr hpin]
    · next hpin => rw [not_not.mp hpin, ← hpinned]
  rw [hasked] at htarget
  exact ⟨target, hmem, htarget⟩

/-- **The other links stay as they are and stand as they stood**, but for their ranks among the
pins. -/
theorem map_unranked_updated (h : Arranged links) (hids : (links.map (·.id)).Nodup) :
    (without next u.id).map unranked = (without links u.id).map unranked := by
  obtain ⟨old, edited, hfound, he, hkept, hturned⟩ := update_eq_withEdited hedit hu hids
  have hid : old.id = u.id := id_of_find? hfound
  have hedited : edited.id = u.id := (hedit.id old edited he).trans hid
  have hold : old ∈ links := List.mem_of_find?_eq_some hfound
  -- past the edited link nothing is changed yet, so that only turning it is left to look at
  rw [← without_withEdited hedited links]
  by_cases hpin : u.pinned.getD old.pinned = old.pinned
  · rw [hkept hpin]
  · have hnodup : ((withEdited links u.id edited).map (·.id)).Nodup := by
      rw [ids_withEdited hedited]
      exact hids
    have harranged : Arranged (withEdited links u.id edited) := by
      obtain ⟨hpinState, hkey⟩ := hedit.place old edited he
      rw [← hid]
      exact h.withEdited hids hold hpinState hkey
    have hmem : edited ∈ withEdited links u.id edited := List.mem_map.mpr ⟨old, hold, if_pos hid⟩
    have htoggled := hturned hpin
    rw [← hedited] at harranged hnodup hmem htoggled ⊢
    exact map_unranked_toggled harranged hnodup hmem htoggled

end

end Shelf

namespace Store

variable {s : Store} {supply : Supply} {storage : Storage} {u : Update} {reply : Reply}

/-- An update that succeeds has led to a shelf and written it. -/
theorem perform_of_updated (hok : (s.run supply storage (.updateLink u)).answer = .ok reply) :
    ∃ links, Shelf.update s.links u (Collection.edit s.categories u) = .ok links ∧
      s.collection.perform supply (.updateLink u) = .ok ⟨some (s.collection.withLinks links), reply⟩ := by
  cases hp : s.collection.perform supply (.updateLink u) with
  | error cause =>
    rw [run_of_rejected hp] at hok
    cases hok
  | ok effect =>
    obtain ⟨_ | next, given⟩ := effect
    · rcases Collection.perform_none hp with ⟨_, _, _, heq, -⟩ | ⟨_, _, heq, -⟩ <;> cases heq
    · have hreply : given = reply := by
        rw [run_of_change hp] at hok
        split at hok
        · cases hok
        · exact Except.ok.inj hok
      subst hreply
      cases Collection.perform_change hp with
      | updateLink hu => exact ⟨_, hu, rfl⟩

namespace Session

/-- **What an update does.**  The ids of the links are distinct, and the update of one of them
succeeds.

The address of the link is normalised, the one that is given or else the one it had.  A title
that is given is trimmed; a description or an icon that is given replaces the one there was, or
takes it away if it is empty; a category that is given and not there is the common one.  What is
not given stays, and so do the id, the order and the time of creation.  A link that is to be in
the other state of being pinned is turned among the edited links; if not, these are what comes
of it.  The other links stay as they are and stand as they stood, but for their ranks among the
pins, and the categories are left alone.

Given again, with writes accepted, the update succeeds and changes neither links nor
categories. -/
theorem update_edits_one_link {s : Session} (hs : s.Reachable) (hids : (s.store.links.map (·.id)).Nodup)
    {supply : Supply} {u : Update} {refusesReads refusesWrites : Bool} {reply : Reply}
    (hok : (s.store.run supply { s.storage with refusesReads, refusesWrites } (.updateLink u)).answer = .ok reply) :
    let outcome := s.store.run supply { s.storage with refusesReads, refusesWrites } (.updateLink u)
    let updated := outcome.store
    ∃ old ∈ s.store.links, ∃ url, old.id = u.id ∧ Url.normalize (u.url.getD old.url) = some url ∧
      let edited : Link := { old with
        url
        title := u.title.elim old.title Text.trim
        description := u.description.elim old.description fun text => if text = "" then none else some text
        icon := u.icon.elim old.icon fun text => if text = "" then none else some text
        categoryId := u.categoryId.elim old.categoryId fun id =>
          if ∃ c ∈ s.store.categories, c.id = id then id else "common" }
      let editedLinks := s.store.links.map fun l => if l.id = u.id then edited else l
      let pinned := u.pinned.getD old.pinned
      updated.categories = s.store.categories ∧
      (∃ target ∈ updated.links, target = { edited with pinned, pinnedOrder := target.pinnedOrder }) ∧
      (pinned = old.pinned → updated.links = editedLinks) ∧
      (pinned ≠ old.pinned → Shelf.togglePin? editedLinks u.id = some updated.links) ∧
      (updated.links.filter (·.id != u.id)).map (fun l => { l with pinnedOrder := none }) =
        (s.store.links.filter (·.id != u.id)).map (fun l => { l with pinnedOrder := none }) ∧
      ∀ supply' refusesReads',
        let again := updated.run supply' { outcome.storage with refusesReads := refusesReads', refusesWrites := false }
          (.updateLink u)
        (∃ reply', again.answer = .ok reply') ∧ again.store.links = updated.links ∧
          again.store.categories = updated.categories := by
  intro outcome updated
  obtain ⟨next, hu, hp⟩ := perform_of_updated hok
  have hcollection : updated.collection = s.store.collection.withLinks next := collection_run hp _
  have hlinks : updated.links = next := congrArg Collection.links hcollection
  have hcategories : updated.categories = s.store.categories := by
    rw [Store.categories, hcollection]
    rfl
  have hsettles := Collection.edit_settles s.store.categories u
  obtain ⟨old, edited, hold, he, hkept, hturned⟩ := Shelf.update_eq_withEdited hsettles hu hids
  obtain ⟨target, hmem, htarget⟩ := Shelf.exists_updated hsettles hu hold he
  have hothers := Shelf.map_unranked_updated hsettles hu hs.inOrder.arranged hids
  obtain ⟨url, hurl, rfl⟩ := Collection.edit_eq_ok_elim he
  refine ⟨old, List.mem_of_find?_eq_some hold, url, Shelf.id_of_find? hold, hurl, ?_⟩
  intro edited editedLinks pinned
  rw [hlinks]
  refine ⟨hcategories, ⟨target, hmem, htarget⟩, hkept, hturned, hothers, fun supply' refusesReads' => ?_⟩
  intro again
  obtain ⟨reply', hagain⟩ : ∃ reply', again = _ :=
    run_of_repeatable hs.inOrder hp (Collection.repeatable_updateLink hids hp) supply' hcollection rfl
  rw [hagain]
  exact ⟨⟨reply', rfl⟩, rfl, hcategories.symm⟩

/-- The second link of a new collection is given another address and title and a category that
is not there, and is pinned behind the first one. -/
theorem second_link_updated_twice :
    let s := (opened Storage.empty).store
    let supply : Supply := ⟨fun _ => "5b1e7c02-93d4-4f6a-8c1d-000000000000", 7, Supply.cut 16 [], Supply.cut 12 []⟩
    let command : Command :=
      .updateLink ⟨"2", some " rust-lang.org ", some " Rust ", none, some "nowhere", none, some true⟩
    let outcome := s.run supply Storage.empty command
    let again := outcome.store.run supply outcome.storage command
    outcome.store.pins.map (fun l => (l.id, l.pinnedOrder)) = [("1", some 0), ("2", some 1)] ∧
      (∃ target ∈ outcome.store.links,
        target.id = "2" ∧ target.url = "https://rust-lang.org" ∧ target.title = "Rust" ∧
          target.categoryId = "common") ∧
      (∃ reply, again.answer = .ok reply) ∧ again.store.links = outcome.store.links := by
  intro s supply command outcome again
  have hok : outcome.answer = .ok .done := by decide
  obtain ⟨old, -, url, hid, hurl, -, ⟨target, hmem, htarget⟩, -, -, -, hagain⟩ :=
    update_edits_one_link (reachable_opened Storage.empty) (by decide) hok
  have hurl : url = "https://rust-lang.org" := by
    have hnormal : Url.normalize " rust-lang.org " = some "https://rust-lang.org" := by decide
    exact Option.some.inj (hurl.symm.trans hnormal)
  have htrimmed : Text.trim " Rust " = "Rust" := by decide
  have hmissing : (if ∃ c ∈ s.categories, c.id = "nowhere" then "nowhere" else "common") = "common" := by decide
  obtain ⟨hreply, hlinks, -⟩ := hagain supply false
  refine ⟨by decide, ⟨target, hmem, ?_⟩, hreply, hlinks⟩
  rw [htarget]
  exact ⟨hid, hurl, htrimmed, hmissing⟩

end Session

end Store

end Bookmarks
