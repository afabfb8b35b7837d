import Bookmarks.Proofs.Collection.Written
import Bookmarks.Proofs.Store.Session

/-! # Properties of the collection that last

What is in memory was led to by a command, or comes from the storage: a load after a refused
write goes back to the last collection that was written.  So a session passes a property of
its collection on only if that holds in both places (`Session.Has`).

**The property lasts** (`Session.Has.after`) if the first collection has it, and repairs and
those commands that are admitted keep it (`Collection.Kept`).  Writing needs nothing more, as
a collection is read back from its text as it was, or not at all.
-/
namespace Bookmarks

variable {P : Collection → Prop} {Admitted : Supply → Collection → Command → Prop}

namespace Collection

/-- A text under the key of the collection stands for one with the property, if it stands for
any. -/
def HoldsIn (P : Collection → Prop) (text : Option String) : Prop :=
  ∀ t ∈ text, ∀ c, codec.ofText t = .ok c → P c

/-- The first collection has the property, and it is kept by repairs and by the commands that
are admitted. -/
structure Kept (P : Collection → Prop) (Admitted : Supply → Collection → Command → Prop) : Prop where
  seed : P seed
  repair : ∀ {c}, P c → P c.repair.collection
  perform : ∀ {c next supply command reply}, P c → Admitted supply c command →
    c.perform supply command = .ok ⟨some next, reply⟩ → P next

theorem holdsIn_compact {c : Collection} (h : P c) : HoldsIn P (some (codec.compact c)) := by
  intro t ht c' hread
  obtain rfl := Option.some.inj ht
  exact ofText_compact_eq hread ▸ h

/-- What is loaded from a storage has the property, if what is stored has it. -/
theorem Kept.load (hP : Kept P Admitted) {storage : Storage} (h : HoldsIn P (storage.stored Storage.dataKey)) :
    P (Store.load storage).collection := by
  have hfetched : P (Store.fetch storage).1 := by
    unfold Store.fetch Storage.read
    split
    · exact hP.seed
    · exact hP.seed
    · next text htext =>
      split
      · next c hc =>
        split at htext
        · cases htext
        · exact h text (Except.ok.inj htext) c hc
      · exact hP.seed
  exact hP.repair hfetched

end Collection

namespace Store.Session

/-- The property holds in memory and in the storage. -/
structure Has (P : Collection → Prop) (s : Session) : Prop where
  memory : P s.store.collection
  stored : Collection.HoldsIn P (s.storage.stored Storage.dataKey)

/-- A request that is admitted: a command that is, or a text that stands for a collection with
the property if it is put in place of the stored one. -/
def Accepts (P : Collection → Prop) (Admitted : Supply → Collection → Command → Prop) (s : Session) :
    Request → Prop
  | .command supply command => Admitted supply s.store.collection command
  | .put key text => key = Storage.dataKey → Collection.HoldsIn P text
  | .load | .flush => True

variable {s : Session}

theorem Has.opened (hP : Collection.Kept P Admitted) {storage : Storage}
    (h : Collection.HoldsIn P (storage.stored Storage.dataKey)) : (opened storage).Has P :=
  ⟨hP.load h, h⟩

/-- An attempt to write, whatever comes of it: the storage holds what it held, or what is in
memory. -/
theorem Has.attempt (h : s.Has P) (store : Store) (hstore : P store.collection) :
    (s.noted store (attempted store.collection s.storage)).Has P := by
  rw [noted_attempted]
  refine ⟨hstore, ?_⟩
  dsimp only [attempted]
  cases hw : s.storage.refusesWrites with
  | true =>
    rw [Storage.stored_write_of_refused hw]
    exact h.stored
  | false =>
    rw [Storage.stored_write_of_accepted hw]
    exact Collection.holdsIn_compact hstore

theorem Has.step (hP : Collection.Kept P Admitted) (h : s.Has P) {e : Event} (he : s.Accepts P Admitted e.request) :
    (s.step e).Has P := by
  obtain ⟨request, refusesReads, refusesWrites⟩ := e
  have hunder : (s.under ⟨request, refusesReads, refusesWrites⟩).Has P := ⟨h.memory, h.stored⟩
  have haccepts : (s.under ⟨request, refusesReads, refusesWrites⟩).Accepts P Admitted request := by
    cases request <;> exact he
  unfold Session.step
  generalize s.under ⟨request, refusesReads, refusesWrites⟩ = s' at hunder haccepts
  cases request with
  | command supply command =>
    simp only [serve]
    rcases s'.store.run_eq supply s'.storage command with ⟨hstore, hstorage⟩ | ⟨next, reply, hp, heq⟩
    · rw [hstore, hstorage, noted_self]
      exact hunder
    · rw [heq]
      exact hunder.attempt ⟨next, _, _⟩ (hP.perform hunder.memory haccepts hp)
  | load => exact ⟨hP.load hunder.stored, hunder.stored⟩
  | flush =>
    simp only [serve, flush_eq]
    exact hunder.attempt ⟨s'.store.collection, _, _⟩ hunder.memory
  | put key text =>
    refine ⟨hunder.memory, ?_⟩
    by_cases hkey : key = Storage.dataKey
    · subst hkey
      simp only [serve, Storage.stored_put_self]
      exact haccepts rfl
    · simp only [serve, Storage.stored_put_of_ne (Ne.symm hkey)]
      exact hunder.stored

/-- **The property lasts.**  By induction on the events; every request is admitted by the
session that it comes to. -/
theorem Has.after (hP : Collection.Kept P Admitted) (h : s.Has P) {events : List Event}
    (haccepts : ∀ n e, events[n]? = some e → (s.after (events.take n)).Accepts P Admitted e.request) :
    (s.after events).Has P := by
  induction events generalizing s with
  | nil => exact h
  | cons e events ih => exact ih (h.step hP (haccepts 0 e rfl)) fun n e' he' => haccepts (n + 1) e' he'

/-- What is asked of the requests, of the commands apart from what somebody else puts into the
storage. -/
theorem accepts_of_commands {events : List Event}
    (hputs : ∀ e ∈ events, ∀ text, e.request = .put Storage.dataKey (some text) →
      ∀ c, Collection.codec.ofText text = .ok c → P c)
    (hcommands : ∀ n e supply command, events[n]? = some e → e.request = .command supply command →
      Admitted supply (s.after (events.take n)).store.collection command) :
    ∀ n e, events[n]? = some e → (s.after (events.take n)).Accepts P Admitted e.request := by
  intro n e he
  cases hrequest : e.request with
  | command supply command => exact hcommands n e supply command he hrequest
  | put key text =>
    rintro rfl t rfl
    exact hputs e (List.mem_of_getElem? he) t hrequest
  | load => trivial
  | flush => trivial

/-- It holds after every request on the way. -/
theorem Has.throughout (hP : Collection.Kept P Admitted) (h : s.Has P) {events : List Event}
    (haccepts : ∀ n e, events[n]? = some e → (s.after (events.take n)).Accepts P Admitted e.request) (n : Nat) :
    (s.after (events.take n)).Has P := by
  refine h.after hP fun k e he => ?_
  rw [List.getElem?_take] at he
  split at he
  · next hk =>
    rw [List.take_take, Nat.min_eq_left (Nat.le_of_lt hk)]
    exact haccepts k e he
  · cases he

theorem after_take_succ {events : List Event} {n : Nat} {e : Event} (he : events[n]? = some e) :
    s.after (events.take (n + 1)) = (s.after (events.take n)).step e := by
  rw [List.take_add_one, he, after, List.foldl_append]
  rfl

end Store.Session

end Bookmarks
