import Bookmarks.Proofs.Collection.Again
import Bookmarks.Proofs.Store.Session

/-! # After a refused write

A command fails in a way that is worth a retry only because the write of the next
collection was refused, and then that collection is in memory already.  So **what is left
to do is to write it**: a flush, once writes are accepted, leaves the store and what is
stored as if the command had succeeded at once.

The command itself is to be given again only if it is repeatable: it starts from the
collection it has led to before, and most commands do something again there.
-/
namespace Bookmarks.Store

variable {s : Store} {supply : Supply} {storage : Storage} {command : Command}

/-! ## Errors worth a retry -/

/-- No cause for which a command is rejected goes away by itself. -/
theorem perform_error_not_retryable {c : Collection} {e : StoreError} (hp : c.perform supply command = .error e) :
    e.isRetryable = false := by
  have hlink : ∀ (reply : Reply) (r : Except LinkError Shelf), c.linkEffect reply r = .error e → e.isRetryable = false := by
    intro reply r h
    cases r with
    | ok links => cases h
    | error cause =>
      obtain rfl := Except.error.inj h
      cases cause <;> rfl
  cases command with
  | addLink draft => exact hlink _ _ hp
  | updateLink u => exact hlink _ _ hp
  | deleteLink id => exact hlink _ _ hp
  | togglePin id => exact hlink _ _ hp
  | reorderLinks activeId overId categoryId => cases hp
  | reorderPinned activeId overId => cases hp
  | addCategory name icon =>
    simp only [Collection.perform] at hp
    split at hp
    · obtain rfl := Except.error.inj hp
      rfl
    · cases hp
  | updateCategory category =>
    simp only [Collection.perform] at hp
    split at hp
    · obtain rfl := Except.error.inj hp
      rfl
    · split at hp
      · obtain rfl := Except.error.inj hp
        rfl
      · cases hp
  | deleteCategory id =>
    simp only [Collection.perform] at hp
    split at hp
    · cases hp
    · next cause _ =>
      obtain rfl := Except.error.inj hp
      cases cause <;> rfl
  | importData links categories => cases hp

/-- An error worth a retry means that a next collection was refused to be written. -/
theorem change_of_retryable {e : StoreError} (hanswer : (s.run supply storage command).answer = .error e)
    (hretry : e.isRetryable = true) :
    storage.refusesWrites = true ∧ ∃ next reply, s.collection.perform supply command = .ok ⟨some next, reply⟩ := by
  cases hp : s.collection.perform supply command with
  | error cause =>
    rw [run_of_rejected hp] at hanswer
    obtain rfl := Except.error.inj hanswer
    rw [perform_error_not_retryable hp] at hretry
    cases hretry
  | ok effect =>
    obtain ⟨_ | next, reply⟩ := effect
    · rw [run_of_no_change hp] at hanswer
      cases hanswer
    · rw [run_of_change hp storage] at hanswer
      cases hw : storage.refusesWrites with
      | true => exact ⟨rfl, next, reply, rfl⟩
      | false =>
        rw [hw] at hanswer
        cases hanswer

/-! ## Once writes are accepted -/

theorem flush_of_accepted (s : Store) (hw : storage.refusesWrites = false) :
    s.flush storage = ⟨.ok (), ⟨s.collection, s.source, false⟩, attempted s.collection storage⟩ := by
  rw [flush_eq, hw]
  rfl

/-- An accepted write makes the same of equal tables. -/
theorem entries_attempted_congr {storage' : Storage} (c : Collection) (hw : storage.refusesWrites = false)
    (hw' : storage'.refusesWrites = false) (h : storage.entries = storage'.entries) :
    (attempted c storage).entries = (attempted c storage').entries := by
  simp only [attempted, Storage.write, Storage.put, hw, hw', h, Bool.false_eq_true, if_false]

theorem entries_attempted_of_refused (c : Collection) (hw : storage.refusesWrites = true) :
    (attempted c storage).entries = storage.entries := by
  simp only [attempted, Storage.write, hw, if_true]

variable {original next : Collection} {reply : Reply}

/-- A repeatable command leaves the collection that it has led to, and writes it. -/
theorem run_of_repeatable (h : original.InOrder)
    (hp : original.perform supply command = .ok ⟨some next, reply⟩) (hr : next.Repeatable command)
    (supply' : Supply) (hs : s.collection = next) (hw : storage.refusesWrites = false) :
    ∃ reply', s.run supply' storage command =
      ⟨.ok reply', ⟨next, s.source, false⟩, attempted next storage⟩ := by
  subst hs
  obtain ⟨reply', hp'⟩ := h.perform_again hp hr supply'
  refine ⟨reply', ?_⟩
  rw [run_of_change hp' storage, hw]
  rfl

/-- **Whether a command may be given again** to a store that it has led to. -/
theorem repeats_iff (h : original.InOrder) (hp : original.perform supply command = .ok ⟨some next, reply⟩)
    (supply' : Supply) (hs : s.collection = next) (hw : storage.refusesWrites = false) :
    (∃ reply', (s.run supply' storage command).answer = .ok reply') ∧
        original.SameUpToGenerated next (s.run supply' storage command).store.collection ↔
      next.Repeatable command := by
  constructor
  · rintro ⟨⟨reply', hok⟩, hsame⟩
    subst hs
    cases hp' : s.collection.perform supply' command with
    | error cause =>
      rw [run_of_rejected hp'] at hok
      cases hok
    | ok effect =>
      rw [collection_run hp'] at hsame
      exact Collection.repeatable_of_same hp hp' hsame
  · intro hr
    obtain ⟨reply', heq⟩ := run_of_repeatable h hp hr supply' hs hw
    rw [heq]
    exact ⟨⟨reply', rfl⟩, Collection.sameUpToGenerated_self _ _⟩

namespace Session

/-- The sessions that a storage can be opened to and served to; no id that is drawn on the
way is that of the common category. -/
def Reachable (s : Session) : Prop :=
  ∃ (storage : Storage) (events : List Event),
    (∀ e ∈ events, ∀ supply ∈ e.request.supply?, supply.SparesCommon) ∧ s = (opened storage).after events

theorem Reachable.inOrder {s : Session} (h : s.Reachable) : s.store.collection.InOrder := by
  obtain ⟨storage, events, hids, rfl⟩ := h
  exact after_collection_inOrder (opened_inOrder storage) hids

theorem reachable_opened (storage : Storage) : (opened storage).Reachable :=
  ⟨storage, [], fun _ he => absurd he List.not_mem_nil, rfl⟩

/-- **What a refused write leaves to do.**  A command that fails with an error worth a
retry has had its write refused, and the collection in memory is the one that it leads to
where the write is accepted.  Once writes are accepted, a flush succeeds and leaves the
same store and the same storage as that.

Given again instead, the command succeeds and leaves the same links and categories, up to
generated ids and times, exactly if it is repeatable; then it leaves the same store and
storage too.  An update is repeatable where the ids of the links are distinct. -/
theorem flush_or_repeat_after_refused_write {s : Session} (hs : s.Reachable) {supply : Supply} {command : Command}
    {refusesReads refusesWrites : Bool} {e : StoreError}
    (hanswer : (s.store.run supply { s.storage with refusesReads, refusesWrites } command).answer = .error e)
    (hretry : e.isRetryable = true) :
    let refused := s.store.run supply { s.storage with refusesReads, refusesWrites } command
    let once := s.store.run supply { s.storage with refusesReads, refusesWrites := false } command
    let accepting (refusesReads : Bool) : Storage := { refused.storage with refusesReads, refusesWrites := false }
    refusesWrites = true ∧ (∃ reply, once.answer = .ok reply) ∧
    refused.store.collection = once.store.collection ∧
    (∀ refusesReads,
      let flushed := refused.store.flush (accepting refusesReads)
      flushed.answer = .ok () ∧ flushed.store = once.store ∧ flushed.storage.entries = once.storage.entries) ∧
    (∀ supply' refusesReads,
      let again := refused.store.run supply' (accepting refusesReads) command
      ((∃ reply, again.answer = .ok reply) ∧
          s.store.collection.SameUpToGenerated once.store.collection again.store.collection ↔
        once.store.collection.Repeatable command) ∧
      (once.store.collection.Repeatable command →
        again.store = once.store ∧ again.storage.entries = once.storage.entries)) ∧
    (∀ u, command = .updateLink u → (s.store.links.map (·.id)).Nodup →
      once.store.collection.Repeatable command) := by
  intro refused once accepting
  obtain ⟨hw, next, reply, hp⟩ := change_of_retryable hanswer hretry
  obtain rfl : refusesWrites = true := hw
  have hrefused : refused = ⟨.error (.ofStorage .writeRefused), ⟨next, s.store.source, true⟩,
      attempted next { s.storage with refusesReads, refusesWrites := true }⟩ := run_of_change hp _
  have honce : once = ⟨.ok reply, ⟨next, s.store.source, false⟩,
      attempted next { s.storage with refusesReads, refusesWrites := false }⟩ := run_of_change hp _
  have hmemory : refused.store.collection = next := by rw [hrefused]
  have hnext : once.store.collection = next := by rw [honce]
  -- a refused write leaves the table as it was, so writing now comes to what writing then would have
  have hentries : ∀ refusesReads', (attempted next (accepting refusesReads')).entries = once.storage.entries := by
    intro refusesReads'
    rw [honce]
    refine entries_attempted_congr next rfl rfl ?_
    show refused.storage.entries = s.storage.entries
    rw [hrefused]
    exact entries_attempted_of_refused next rfl
  refine ⟨rfl, ⟨reply, by rw [honce]⟩, hmemory.trans hnext.symm, ?_, ?_, ?_⟩
  · intro refusesReads' flushed
    have hflushed : flushed = ⟨.ok (), once.store, attempted next (accepting refusesReads')⟩ := by
      rw [show flushed = _ from flush_of_accepted refused.store rfl, hmemory, honce, hrefused]
    rw [hflushed]
    exact ⟨rfl, rfl, hentries refusesReads'⟩
  · intro supply' refusesReads' again
    rw [hnext]
    refine ⟨repeats_iff hs.inOrder hp supply' hmemory rfl, fun hr => ?_⟩
    obtain ⟨reply', hagain⟩ : ∃ reply', again =
        ⟨.ok reply', ⟨next, refused.store.source, false⟩, attempted next (accepting refusesReads')⟩ :=
      run_of_repeatable hs.inOrder hp hr supply' hmemory rfl
    rw [hagain]
    exact ⟨by rw [honce, hrefused], hentries refusesReads'⟩
  · rintro u rfl hids
    rw [hnext]
    exact Collection.repeatable_updateLink hids hp

/-- A link is given another title and pinned while the storage refuses to be written, and
again when it does not. -/
theorem update_again_after_refused_write :
    let supply : Supply := ⟨fun _ => "5b1e7c02-93d4-4f6a-8c1d-000000000000", 7, Supply.cut 16 [], Supply.cut 12 []⟩
    let command : Command := .updateLink ⟨"2", none, some " Rust ", none, none, none, some true⟩
    let s := opened Storage.empty
    let refused := s.store.run supply { s.storage with refusesReads := false, refusesWrites := true } command
    let once := s.store.run supply { s.storage with refusesReads := false, refusesWrites := false } command
    let again := refused.store.run supply { refused.storage with refusesReads := false, refusesWrites := false } command
    refused.answer = .error (.ofStorage .writeRefused) ∧ (∃ reply, again.answer = .ok reply) ∧
      again.store = once.store := by
  intro supply command s refused once again
  have hs : s.Reachable := reachable_opened Storage.empty
  have hanswer : refused.answer = .error (.ofStorage .writeRefused) := by decide
  obtain ⟨-, -, -, -, hrepeat, hupdate⟩ := flush_or_repeat_after_refused_write hs hanswer rfl
  have hr := hupdate _ rfl (by decide)
  obtain ⟨hiff, hstore⟩ := hrepeat supply false
  exact ⟨hanswer, (hiff.mpr hr).1, (hstore hr).1⟩

/-- A link is unpinned while the storage refuses to be written, and pinned when this is
asked for again: what is worth a retry is not always to be given again. -/
theorem not_every_refused_command_repeats :
    ¬ ∀ (s : Session) (supply supply' : Supply) (command : Command) (refusesReads : Bool) (e : StoreError),
      s.Reachable →
      let refused := s.store.run supply { s.storage with refusesReads, refusesWrites := true } command
      let once := s.store.run supply { s.storage with refusesReads, refusesWrites := false } command
      let again := refused.store.run supply' { refused.storage with refusesReads, refusesWrites := false } command
      refused.answer = .error e → e.isRetryable = true →
      (∃ reply, again.answer = .ok reply) ∧
        s.store.collection.SameUpToGenerated once.store.collection again.store.collection := by
  intro h
  let supply : Supply := ⟨fun _ => "5b1e7c02-93d4-4f6a-8c1d-000000000000", 7, Supply.cut 16 [], Supply.cut 12 []⟩
  obtain ⟨-, hsame⟩ := h (opened Storage.empty) supply supply (.togglePin "1") false (.ofStorage .writeRefused)
    (reachable_opened Storage.empty) (by decide) rfl
  exact absurd hsame.pinnedCount_eq (by decide)

end Session

end Bookmarks.Store
