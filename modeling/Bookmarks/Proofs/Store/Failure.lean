import Bookmarks.Proofs.Store.Persistence
import Bookmarks.Proofs.Store.Retry

/-! # Commands that fail

A command can fail in two ways.  It is *rejected* for a cause of its own, before it has
touched anything; or its write is *refused*, and then it has taken effect in memory and
nowhere else.  **The error tells which**: a refused write, and nothing else, is answered as
one of persistence.

After a refused write the store is dirty, and writing what is in memory is all that is left
to do.  That the text which is written then is read back as the collection takes ranks that
fit into it, so the sessions here are those whose ranks do not run out (`InRange`).
-/
namespace Bookmarks.Store

variable {s : Store} {supply : Supply} {storage : Storage} {command : Command} {e : StoreError}

/-! ## What the error tells -/

/-- The last thing that was tried is a write, and it was refused. -/
def RefusedWrite (before after : Storage) : Prop :=
  ∃ a, Storage.newAttempt? before after = some a ∧ a.accepted = false

theorem isRetryable_iff (e : StoreError) : e.isRetryable = true ↔ ∃ reason, e = .persistence reason := by
  cases e with
  | persistence reason => exact ⟨fun _ => ⟨reason, rfl⟩, fun _ => rfl⟩
  | linkNotFound _ => exact ⟨nofun, nofun⟩
  | categoryNotFound _ => exact ⟨nofun, nofun⟩
  | forbiddenOperation _ => exact ⟨nofun, nofun⟩
  | invalidLink _ => exact ⟨nofun, nofun⟩
  | serialization _ => exact ⟨nofun, nofun⟩

/-- A command that fails for any other cause leaves the store and the storage as they
were, the attempts to write included. -/
theorem run_of_error (h : (s.run supply storage command).answer = .error e) (he : e.isRetryable = false) :
    (s.run supply storage command).store = s ∧ (s.run supply storage command).storage = storage := by
  rcases s.run_eq supply storage command with hsame | ⟨next, reply, -, heq⟩
  · exact hsame
  · rw [heq] at h
    dsimp only at h
    split at h
    · obtain rfl := Except.error.inj h
      cases he
    · cases h

/-- **A write is refused only to a command that leads to another collection**, which is
what is in memory then. -/
theorem refusedWrite_run_iff : RefusedWrite storage (s.run supply storage command).storage ↔
    storage.refusesWrites = true ∧ ∃ next reply, s.collection.perform supply command = .ok ⟨some next, reply⟩ := by
  constructor
  · rintro ⟨a, ha, haccepted⟩
    rcases s.run_eq supply storage command with ⟨-, hsame⟩ | ⟨next, reply, hp, heq⟩
    · rw [hsame, Storage.newAttempt?_self] at ha
      cases ha
    · rw [heq] at ha
      dsimp only [attempted] at ha
      rw [Storage.newAttempt?_write] at ha
      obtain rfl := Option.some.inj ha
      exact ⟨by simpa using haccepted, next, reply, hp⟩
  · rintro ⟨hw, next, reply, hp⟩
    rw [run_of_change hp]
    exact ⟨_, Storage.newAttempt?_write _ _ _, by rw [hw]; rfl⟩

/-- **The error is one of persistence exactly where a write was refused.** -/
theorem persistence_iff_refusedWrite :
    (∃ reason, (s.run supply storage command).answer = .error (.persistence reason)) ↔
      RefusedWrite storage (s.run supply storage command).storage := by
  rw [refusedWrite_run_iff]
  constructor
  · rintro ⟨reason, h⟩
    exact change_of_retryable h rfl
  · rintro ⟨hw, next, reply, hp⟩
    rw [run_of_change hp, hw]
    exact ⟨_, rfl⟩

/-! ## Sessions whose ranks do not run out -/

/-- What an event brings in from outside can be stored. -/
structure Event.Storable (e : Event) : Prop where
  now : ∀ supply ∈ e.request.supply?, IsRank supply.now
  command : ∀ supply command, e.request = .command supply command → command.Storable

namespace Session

/-- The sessions over a storage that nothing was brought into that cannot be stored, and
in which there never were more links than ranks. -/
inductive InRange : Session → Prop where
  | opened (storage : Storage) (hlen : (load storage).links.length ≤ rankCount) : InRange (opened storage)
  | step {s : Session} (h : InRange s) {e : Event} (he : e.Storable) (hlen : (s.step e).store.links.length ≤ rankCount) :
    InRange (s.step e)

variable {s : Session}

theorem InRange.length_links (h : InRange s) : s.store.links.length ≤ rankCount := by
  cases h with
  | opened _ hlen => exact hlen
  | step _ _ hlen => exact hlen

/-- **What one event preserves.** -/
theorem step_storable (hs : s.store.collection.Storable) (hlen : s.store.links.length ≤ rankCount) {e : Event}
    (he : e.Storable) (hlen' : (s.step e).store.links.length ≤ rankCount) : (s.step e).store.collection.Storable := by
  obtain ⟨request, refusesReads, refusesWrites⟩ := e
  cases request with
  | command supply command =>
    simp only [step, serve, noted_store] at hlen' ⊢
    rcases s.store.run_eq supply (s.under _).storage command with ⟨hstore, -⟩ | ⟨next, reply, hp, heq⟩
    · rw [show (s.under _).store = s.store from rfl, hstore]
      exact hs
    · rw [show (s.under _).store = s.store from rfl, heq] at hlen' ⊢
      exact Collection.perform_storable hs (he.now supply rfl) (he.command supply command rfl) hp hlen hlen'
  | load => exact load_storable hlen'
  | flush =>
    simp only [step, serve, noted_store, flush_eq]
    exact hs
  | put _ _ => exact hs

/-- By induction on how the session was reached. -/
theorem InRange.storable (h : InRange s) : s.store.collection.Storable := by
  induction h with
  | opened _ hlen => exact load_storable hlen
  | step h he hlen' ih => exact step_storable ih h.length_links he hlen'

/-! ## What is left of a command that fails -/

/-- **A command that fails has done nothing, or everything but to write.**  From any
reachable session, whatever the storage refuses, it fails with an error of persistence
exactly if its write is refused.

With any other error the store is as it was, with its collection and its dirty flag, and so
is the storage, to which nothing was tried to be written.  With a refused write, what is
stored is as it was, the store is dirty, and the collection in memory is the one that the
command leaves where it succeeds.  Then, over any storage that accepts it, a flush succeeds;
the store is not dirty any more, and the stored text stands for that collection. -/
theorem nothing_or_all_but_written (h : InRange s) {supply : Supply} (hnow : IsRank supply.now) {command : Command}
    (hcommand : command.Storable) (refusesReads refusesWrites : Bool)
    (hlen : (s.store.run supply { s.storage with refusesReads, refusesWrites } command).store.links.length ≤ rankCount) :
    let storage : Storage := { s.storage with refusesReads, refusesWrites }
    let outcome := s.store.run supply storage command
    let once := s.store.run supply { s.storage with refusesReads, refusesWrites := false } command
    ((∃ reason, outcome.answer = .error (.persistence reason)) ↔ RefusedWrite storage outcome.storage) ∧
    (∀ e, outcome.answer = .error e → (∀ reason, e ≠ .persistence reason) →
      outcome.store = s.store ∧ outcome.storage = storage) ∧
    (RefusedWrite storage outcome.storage →
      (∀ key, outcome.storage.stored key = s.storage.stored key) ∧ outcome.store.dirty = true ∧
      (∃ reply, once.answer = .ok reply) ∧ outcome.store.collection = once.store.collection ∧
      ∀ later : Storage, later.refusesWrites = false →
        let flushed := outcome.store.flush later
        flushed.answer = .ok () ∧ flushed.store = { outcome.store with dirty := false } ∧
        ∃ text, flushed.storage.stored Storage.dataKey = some text ∧
          Collection.codec.ofText text = .ok outcome.store.collection) := by
  intro storage outcome once
  refine ⟨persistence_iff_refusedWrite, fun e he hother => ?_, fun hrefused => ?_⟩
  · have hretry : e.isRetryable = false := by
      rw [← Bool.not_eq_true, isRetryable_iff]
      rintro ⟨reason, rfl⟩
      exact hother reason rfl
    exact run_of_error he hretry
  · obtain ⟨hw, next, reply, hp⟩ := refusedWrite_run_iff.mp hrefused
    have houtcome : outcome = ⟨.error (.ofStorage .writeRefused), ⟨next, s.store.source, true⟩, attempted next storage⟩ := by
      rw [show outcome = _ from run_of_change hp storage, hw]
      rfl
    have honce : once = ⟨.ok reply, ⟨next, s.store.source, false⟩,
      attempted next { s.storage with refusesReads, refusesWrites := false }⟩ := run_of_change hp _
    rw [show s.store.run supply _ command = outcome from rfl, houtcome] at hlen
    have hstorable : next.Storable := Collection.perform_storable h.storable hnow hcommand hp h.length_links hlen
    rw [houtcome, honce]
    refine ⟨Storage.stored_write_of_refused hw, rfl, ⟨reply, rfl⟩, rfl, fun later hlater => ?_⟩
    rw [flush_of_accepted _ hlater]
    exact ⟨rfl, rfl, _, Storage.stored_write_of_accepted hlater, (Collection.codec_keeps hstorable).ofText_compact⟩

/-- The common category is to be deleted, which is rejected; then a pin is taken off while
the storage refuses to be written, and written later. -/
theorem unpinned_by_flush_after_refused_write :
    let supply : Supply := ⟨fun _ => "5b1e7c02-93d4-4f6a-8c1d-000000000000", 7, Supply.cut 16 [], Supply.cut 12 []⟩
    let s := opened Storage.empty
    let rejected := s.store.run supply { s.storage with refusesReads := false, refusesWrites := true }
      (.deleteCategory "common")
    let refused := s.store.run supply { s.storage with refusesReads := false, refusesWrites := true } (.togglePin "1")
    let flushed := refused.store.flush { refused.storage with refusesWrites := false }
    (rejected.store = s.store ∧ rejected.storage.attempts = []) ∧
    refused.store.dirty = true ∧ refused.storage.stored Storage.dataKey = none ∧ flushed.store.dirty = false ∧
    ∃ text c, flushed.storage.stored Storage.dataKey = some text ∧ Collection.codec.ofText text = .ok c ∧
      Shelf.pinnedCount c.links = 0 := by
  intro supply s rejected refused flushed
  have hrange : InRange s := .opened Storage.empty (by decide)
  have hdelete : (Command.deleteCategory "common").Storable := trivial
  have htoggle : (Command.togglePin "1").Storable := trivial
  obtain ⟨-, hrejected, -⟩ :=
    nothing_or_all_but_written hrange (by decide : IsRank supply.now) hdelete false true (by decide)
  obtain ⟨hstore, hstorage⟩ :=
    hrejected (.forbiddenOperation "the common category cannot be deleted") (by decide) nofun
  obtain ⟨hiff, -, hrefused⟩ :=
    nothing_or_all_but_written hrange (by decide : IsRank supply.now) htoggle false true (by decide)
  obtain ⟨hstored, hdirty, -, -, hflush⟩ :=
    hrefused (hiff.mp ⟨StorageError.writeRefused.message, by decide⟩)
  obtain ⟨-, hclean, text, htext, hread⟩ := hflush { refused.storage with refusesWrites := false } rfl
  refine ⟨⟨hstore, congrArg Storage.attempts hstorage⟩, hdirty, hstored Storage.dataKey,
    congrArg Store.dirty hclean, text, refused.store.collection, htext, hread, by decide⟩

end Session

end Bookmarks.Store
