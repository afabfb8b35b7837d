import Bookmarks.Proofs.Collection.Storable
import Bookmarks.Proofs.Store.Session

/-! # What the storage holds

While nobody else writes under its key, a store and its storage drift apart only
where a write is refused.  The invariant of a session (`Consistent`) says that opening
another store over the same storage gives **the collection that was last loaded or
written with success**, and that this is the one in memory unless the store is dirty.

It rests on two facts: a collection that can be stored is read back from its text, and
a collection in order is not changed by the repair that follows.
-/
namespace Bookmarks.Store

/-! ## Loading -/

/-- Loading asks for nothing but the text under the key of the collection. -/
theorem load_congr {a b : Storage} (hreads : a.refusesReads = b.refusesReads)
    (hdata : a.stored Storage.dataKey = b.stored Storage.dataKey) : load a = load b := by
  unfold load fetch Storage.read
  rw [hreads, hdata]

/-- **What is loaded from the text of a collection in order is that collection.** -/
theorem load_of_stored {storage : Storage} {c : Collection} {text : String} (hreads : storage.refusesReads = false)
    (hdata : storage.stored Storage.dataKey = some text) (htext : Collection.codec.ofText text = .ok c)
    (hc : c.InOrder) : (load storage).collection = c := by
  have hfetch : fetch storage = (c, .persisted) := by
    unfold fetch Storage.read
    simp only [hreads, hdata, htext, Bool.false_eq_true, if_false]
  unfold load
  rw [hfetch]
  exact hc.repair_eq

/-- What is loaded can be stored, as long as its links can be counted. -/
theorem load_storable {storage : Storage} (hlen : (load storage).links.length ≤ rankCount) :
    (load storage).collection.Storable := by
  have hfetch : (fetch storage).1.Storable := by
    unfold fetch
    split
    · exact Collection.seed_storable
    · exact Collection.seed_storable
    · split
      · next hc => exact Collection.storable_of_ofText hc
      · exact Collection.seed_storable
  have hrepair := Collection.length_links_repair (fetch storage).1
  exact Collection.repair_storable hfetch (hrepair ▸ hlen)

/-- **A command that succeeds and changes the collection has written it.** -/
theorem run_clean_of_ok {s : Store} {supply : Supply} {storage : Storage} {command : Command} {reply : Reply}
    (hok : (s.run supply storage command).answer = .ok reply)
    (hchanged : (s.run supply storage command).store.collection ≠ s.collection) :
    (s.run supply storage command).store.dirty = false := by
  rcases s.run_eq supply storage command with ⟨hstore, -⟩ | ⟨next, reply', -, heq⟩
  · exact absurd (congrArg collection hstore) hchanged
  · rw [heq] at hok ⊢
    dsimp only at hok ⊢
    split at hok
    · cases hok
    · next hw => exact Bool.eq_false_iff.mpr hw

/-! ## Sessions whose storage nobody else writes -/

/-- The collection that is in the storage after an entry of the log, if the entry
tells. -/
def Entry.kept? : Entry → Option Collection
  | .loaded c => some c
  | .wrote c true => some c
  | .wrote _ false => none

/-- The collection that was last loaded or written with success. -/
def kept? (log : List Entry) : Option Collection :=
  log.findSome? Entry.kept?

/-- Whether the latest attempt to write was accepted, if there was one since the last
load. -/
def lastAttempt? : List Entry → Option Bool
  | .wrote _ accepted :: _ => some accepted
  | _ => none

/-- An event of a storage that can be read and under whose key nobody else writes; what
it brings in from outside can be stored. -/
structure Event.Owned (e : Event) : Prop where
  reads : e.refusesReads = false
  key : ∀ key text, e.request = .put key text → key ≠ Storage.dataKey
  supply : ∀ supply ∈ e.request.supply?, supply.SparesCommon ∧ IsRank supply.now
  command : ∀ supply command, e.request = .command supply command → command.Storable

namespace Session

variable {s : Session}

/-- What a session and its storage have to do with one another. -/
structure Consistent (s : Session) : Prop where
  inOrder : s.store.collection.InOrder
  storable : s.store.collection.Storable
  reads : s.storage.refusesReads = false
  kept : kept? s.log = some (load s.storage).collection
  clean : s.store.dirty = false → (load s.storage).collection = s.store.collection
  dirty : s.store.dirty = true ↔ lastAttempt? s.log = some false

/-- A session just loaded is consistent. -/
theorem consistent_loaded {storage : Storage} (hreads : storage.refusesReads = false) (log : List Entry)
    (hlen : (load storage).links.length ≤ rankCount) :
    Consistent ⟨load storage, storage, .loaded (load storage).collection :: log⟩ where
  inOrder := Collection.repair_inOrder _
  storable := load_storable hlen
  reads := hreads
  kept := rfl
  clean _ := rfl
  dirty := ⟨nofun, nofun⟩

/-- Another storage will do as long as the same is loaded from it. -/
theorem Consistent.of_stored (h : s.Consistent) {storage : Storage} (hreads : storage.refusesReads = false)
    (hdata : storage.stored Storage.dataKey = s.storage.stored Storage.dataKey) :
    Consistent { s with storage } := by
  have hload : load storage = load s.storage := load_congr (hreads.trans h.reads.symm) hdata
  exact ⟨h.inOrder, h.storable, hreads, hload ▸ h.kept, hload ▸ h.clean, h.dirty⟩

/-- An attempt to write the collection in memory, whatever comes of it. -/
theorem Consistent.attempt (h : s.Consistent) {next : Collection} (hnext : next.InOrder) (hstorable : next.Storable)
    (source : Source) :
    (s.noted ⟨next, source, s.storage.refusesWrites⟩ (attempted next s.storage)).Consistent := by
  rw [noted_attempted s ⟨next, source, s.storage.refusesWrites⟩]
  have hreads : (attempted next s.storage).refusesReads = false := Storage.refusesReads_write.trans h.reads
  cases hw : s.storage.refusesWrites with
  | false =>
    -- what was written is read back, and the repair changes nothing of it
    have hload : (load (attempted next s.storage)).collection = next :=
      load_of_stored hreads (Storage.stored_write_of_accepted hw) (Collection.codec_keeps hstorable).ofText_compact
        hnext
    exact ⟨hnext, hstorable, hreads, (congrArg some hload).symm, fun _ => hload, ⟨nofun, nofun⟩⟩
  | true =>
    -- the storage holds what it held, so the log tells the same of it
    have hload : load (attempted next s.storage) = load s.storage :=
      load_congr Storage.refusesReads_write (Storage.stored_write_of_refused hw _)
    refine ⟨hnext, hstorable, hreads, ?_, nofun, ⟨fun _ => rfl, fun _ => rfl⟩⟩
    rw [show load (attempted next s.storage) = load s.storage from hload]
    exact h.kept

theorem Consistent.step (h : s.Consistent) {e : Event} (he : e.Owned) (hlen : s.store.links.length ≤ rankCount)
    (hlen' : (s.step e).store.links.length ≤ rankCount) : (s.step e).Consistent := by
  obtain ⟨request, refusesReads, refusesWrites⟩ := e
  obtain ⟨hreads, hkey, hsupply, hcommand⟩ := he
  have hunder : (s.under ⟨request, refusesReads, refusesWrites⟩).Consistent := h.of_stored hreads rfl
  generalize hs' : s.under ⟨request, refusesReads, refusesWrites⟩ = s' at hunder
  have hstore : s'.store = s.store := by rw [← hs']; rfl
  unfold Session.step at hlen' ⊢
  rw [hs'] at hlen' ⊢
  cases request with
  | command supply command =>
    obtain ⟨hids, hnow⟩ := hsupply supply rfl
    simp only [serve] at hlen' ⊢
    rcases s'.store.run_eq supply s'.storage command with ⟨hst, hsto⟩ | ⟨next, reply, hp, heq⟩
    · rw [hst, hsto, noted_self]
      exact hunder
    · rw [heq, noted_store] at hlen'
      rw [heq]
      refine hunder.attempt (hunder.inOrder.perform hids hp) ?_ _
      rw [← hstore] at hlen
      exact Collection.perform_storable hunder.storable hnow (hcommand supply command rfl) hp hlen hlen'
  | load => exact consistent_loaded hunder.reads _ hlen'
  | flush =>
    simp only [serve, flush_eq]
    exact hunder.attempt hunder.inOrder hunder.storable _
  | put key text =>
    exact hunder.of_stored hunder.reads (Storage.stored_put_of_ne (Ne.symm (hkey key text rfl)) _ _)

/-- By induction on the events; no list of links on the way is too long to be
counted. -/
theorem Consistent.after (h : s.Consistent) {events : List Event} (howned : ∀ e ∈ events, e.Owned)
    (hlen : ∀ n, (s.after (events.take n)).store.links.length ≤ rankCount) : (s.after events).Consistent := by
  induction events generalizing s with
  | nil => exact h
  | cons e events ih =>
    obtain ⟨he, hevents⟩ := List.forall_mem_cons.mp howned
    have hstep : (s.step e).Consistent := h.step he (hlen 0) (hlen 1)
    exact ih hstep hevents fun n => hlen (n + 1)

/-- **The storage holds what is in memory unless the store is dirty**, and then it holds
what was last loaded or written with success.  The store is dirty exactly when the latest
attempt to write since the last load was refused, which no command that succeeds with a
change leaves behind; and the exported text stands for the collection in memory.

Reads are accepted and nobody else writes under the key of the collection.  No list
comes to hold more links than there are ranks of sixty-four bits. -/
theorem storage_agrees_with_memory (storage : Storage) (events : List Event) (hreads : storage.refusesReads = false)
    (howned : ∀ e ∈ events, e.Owned)
    (hlen : ∀ n, ((opened storage).after (events.take n)).store.links.length ≤ rankCount) :
    let s := (opened storage).after events
    (s.store.dirty = false → (load s.storage).collection = s.store.collection) ∧
    (s.store.dirty = true → kept? s.log = some (load s.storage).collection) ∧
    (s.store.dirty = true ↔ lastAttempt? s.log = some false) ∧
    (∀ supply command refusesWrites reply,
      let outcome := s.store.run supply { s.storage with refusesWrites } command
      outcome.answer = .ok reply → outcome.store.collection ≠ s.store.collection → outcome.store.dirty = false) ∧
    (∀ target : Storage, target.refusesReads = false →
      (load (target.put Storage.dataKey (some s.store.exportText))).collection = s.store.collection) := by
  intro s
  have hs : s.Consistent := (consistent_loaded hreads [] (hlen 0)).after howned hlen
  refine ⟨hs.clean, fun _ => hs.kept, hs.dirty, fun _ _ _ _ => run_clean_of_ok, fun target htarget => ?_⟩
  exact load_of_stored htarget (Storage.stored_put_self _ _ _) (Collection.codec_keeps hs.storable).ofText_pretty
    hs.inOrder

/-- A pin is taken off while the storage refuses to be written. -/
theorem storage_behind_after_refused_toggle :
    let supply : Supply := ⟨fun _ => "5b1e7c02-93d4-4f6a-8c1d-000000000000", 7, Supply.cut 16 [], Supply.cut 12 []⟩
    let toggle : Event := ⟨.command supply (.togglePin "1"), false, true⟩
    let s := (opened Storage.empty).after [toggle]
    s.store.dirty = true ∧ kept? s.log = some (load s.storage).collection ∧
      (load (Storage.empty.put Storage.dataKey (some s.store.exportText))).collection = s.store.collection := by
  intro supply toggle s
  have howned : ∀ e ∈ [toggle], e.Owned := by
    intro e he
    obtain rfl := List.mem_singleton.mp he
    refine ⟨rfl, nofun, ?_, ?_⟩
    · rintro _ ⟨⟩
      exact ⟨fun _ => show "5b1e7c02-93d4-4f6a-8c1d-000000000000" ≠ Category.commonId by decide, by decide⟩
    · rintro _ _ ⟨⟩
      trivial
  have hlen : ∀ n, ((opened Storage.empty).after ([toggle].take n)).store.links.length ≤ rankCount := by
    intro n
    rcases n with _ | n
    · decide
    · rw [List.take_of_length_le (by simp)]
      decide
  obtain ⟨-, hkept, hdirty, -, hexport⟩ := storage_agrees_with_memory Storage.empty [toggle] rfl howned hlen
  have hd : s.store.dirty = true := hdirty.mpr (by decide)
  exact ⟨hd, hkept hd, hexport Storage.empty rfl⟩

end Session

end Bookmarks.Store
