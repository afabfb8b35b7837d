import Bookmarks.Proofs.Collection.InOrder
import Bookmarks.Proofs.Storage
import Bookmarks.Store

/-! # Sessions of the store

A session opens a store over a storage and then serves requests, one after the
other.  While a request is served the storage may refuse to be read, to be written,
or both, and between two requests somebody else may change what it holds.

A session keeps a log of its loads and of its attempts to write, the latest first.
An attempt is seen from outside, by comparing the journal of the storage before and
after a request (`Storage.newAttempt?`), so the log says nothing that the store
says about itself.

The statement of this module is that **the collection in memory is in order at all
times** (`collection_inOrder_at_all_times`), whatever the storage held at first,
whatever was asked and whatever was refused.
-/
namespace Bookmarks

/-- No id that is drawn is that of the common category. -/
def Supply.SparesCommon (supply : Supply) : Prop :=
  ∀ k, supply.id k ≠ Category.commonId

namespace Store

/-! ## Writing -/

/-- The storage after an attempt to write a collection. -/
def attempted (c : Collection) (storage : Storage) : Storage :=
  (storage.write Storage.dataKey (some (Collection.codec.compact c))).2

/-- Flushing tries to write; the store is dirty where that is refused. -/
theorem flush_eq (s : Store) (storage : Storage) : s.flush storage =
    ⟨if storage.refusesWrites then .error (.ofStorage .writeRefused) else .ok (),
      { s with dirty := storage.refusesWrites }, attempted s.collection storage⟩ := by
  unfold flush attempted Storage.write
  by_cases hw : storage.refusesWrites
  · simp only [hw, if_true]
  · simp only [hw, if_false, Bool.false_eq_true]

/-! ## Commands -/

section
variable {s : Store} {supply : Supply} {command : Command} {next : Collection} {reply : Reply}

/-- A command that is rejected leaves everything alone. -/
theorem run_of_rejected {e : StoreError} (hp : s.collection.perform supply command = .error e) (storage : Storage) :
    s.run supply storage command = ⟨.error e, s, storage⟩ := by
  unfold Store.run
  rw [hp]

/-- So does a command that leads nowhere else. -/
theorem run_of_no_change (hp : s.collection.perform supply command = .ok ⟨none, reply⟩) (storage : Storage) :
    s.run supply storage command = ⟨.ok reply, s, storage⟩ := by
  unfold Store.run
  rw [hp]

/-- A command that leads to another collection has it in memory from then on, and tries to
write it. -/
theorem run_of_change (hp : s.collection.perform supply command = .ok ⟨some next, reply⟩) (storage : Storage) :
    s.run supply storage command =
      ⟨if storage.refusesWrites then .error (.ofStorage .writeRefused) else .ok reply,
        ⟨next, s.source, storage.refusesWrites⟩, attempted next storage⟩ := by
  unfold Store.run
  rw [hp]
  dsimp only
  unfold commit
  rw [flush_eq]
  split <;> rfl

/-- What is in memory after a command that is not rejected. -/
theorem collection_run {effect : Effect} (hp : s.collection.perform supply command = .ok effect)
    (storage : Storage) : (s.run supply storage command).store.collection = effect.next.getD s.collection := by
  obtain ⟨_ | next, reply⟩ := effect
  · rw [run_of_no_change hp]
    rfl
  · rw [run_of_change hp]
    rfl

end

/-- A command leaves the store and its storage alone, or tries to write what it comes
to, which is in memory from then on. -/
theorem run_eq (s : Store) (supply : Supply) (storage : Storage) (command : Command) :
    ((s.run supply storage command).store = s ∧ (s.run supply storage command).storage = storage) ∨
      ∃ next reply, s.collection.perform supply command = .ok ⟨some next, reply⟩ ∧
        s.run supply storage command =
          ⟨if storage.refusesWrites then .error (.ofStorage .writeRefused) else .ok reply,
            ⟨next, s.source, storage.refusesWrites⟩, attempted next storage⟩ := by
  cases hp : s.collection.perform supply command with
  | error e =>
    rw [run_of_rejected hp]
    exact Or.inl ⟨rfl, rfl⟩
  | ok effect =>
    obtain ⟨_ | next, reply⟩ := effect
    · rw [run_of_no_change hp]
      exact Or.inl ⟨rfl, rfl⟩
    · exact Or.inr ⟨next, reply, rfl, run_of_change hp storage⟩

/-! ## Sessions -/

/-- What is asked of a store, or happens to its storage. -/
inductive Request where
  | command (supply : Supply) (command : Command)
  | load
  | flush
  /-- Somebody else puts a text, or nothing, under a key. -/
  | put (key : String) (text : Option String)

/-- The supply that a request draws from. -/
def Request.supply? : Request → Option Supply
  | .command supply _ => some supply
  | _ => none

/-- A request, and what the storage refuses while it is served. -/
structure Event where
  request : Request
  refusesReads : Bool
  refusesWrites : Bool

/-- What is noted of a request: the collection that was loaded, or that an attempt
was made to write. -/
inductive Entry where
  | loaded (c : Collection)
  | wrote (c : Collection) (accepted : Bool)
  deriving DecidableEq, Repr

/-- A store over its storage, and what has happened to it. -/
structure Session where
  store : Store
  storage : Storage
  /-- The loads and the attempts to write, the latest first. -/
  log : List Entry

namespace Session

/-- The session that opening a store over a storage starts. -/
def opened (storage : Storage) : Session :=
  ⟨load storage, storage, [.loaded (load storage).collection]⟩

/-- The session with a storage that refuses what it does during an event. -/
def under (s : Session) (e : Event) : Session :=
  { s with storage := { s.storage with refusesReads := e.refusesReads, refusesWrites := e.refusesWrites } }

/-- The session after an operation that may have tried to write. -/
def noted (s : Session) (store : Store) (storage : Storage) : Session :=
  match Storage.newAttempt? s.storage storage with
  | none => ⟨store, storage, s.log⟩
  | some a => ⟨store, storage, .wrote store.collection a.accepted :: s.log⟩

/-- The session after a request. -/
def serve (s : Session) : Request → Session
  | .command supply command =>
    let outcome := s.store.run supply s.storage command
    s.noted outcome.store outcome.storage
  | .load =>
    { s with store := load s.storage, log := .loaded (load s.storage).collection :: s.log }
  | .flush =>
    let outcome := s.store.flush s.storage
    s.noted outcome.store outcome.storage
  | .put key text => { s with storage := s.storage.put key text }

/-- The session after an event. -/
def step (s : Session) (e : Event) : Session :=
  (s.under e).serve e.request

/-- The session after one event and then another. -/
def after (s : Session) (events : List Event) : Session :=
  events.foldl step s

variable {s : Session}

@[simp] theorem noted_store (s : Session) (store : Store) (storage : Storage) :
    (s.noted store storage).store = store := by
  unfold noted
  split <;> rfl

/-- An attempt to write is noted, with its outcome. -/
theorem noted_attempted (s : Session) (store : Store) :
    s.noted store (attempted store.collection s.storage) =
      ⟨store, attempted store.collection s.storage, .wrote store.collection (!s.storage.refusesWrites) :: s.log⟩ := by
  unfold noted attempted
  rw [Storage.newAttempt?_write]

/-- What does not try to write is not noted. -/
theorem noted_self (s : Session) (store : Store) : s.noted store s.storage = ⟨store, s.storage, s.log⟩ := by
  unfold noted
  rw [Storage.newAttempt?_self]

/-! ## What a request does to the collection in memory -/

theorem step_collection_inOrder (h : s.store.collection.InOrder) {e : Event}
    (hids : ∀ supply ∈ e.request.supply?, supply.SparesCommon) : (s.step e).store.collection.InOrder := by
  obtain ⟨request, _, _⟩ := e
  cases request with
  | command supply command =>
    simp only [step, serve, noted_store]
    rcases s.store.run_eq supply (s.under _).storage command with ⟨hstore, -⟩ | ⟨next, reply, hp, heq⟩
    · rw [show (s.under _).store = s.store from rfl, hstore]
      exact h
    · rw [show (s.under _).store = s.store from rfl, heq]
      exact h.perform (hids supply rfl) hp
  | load => exact Collection.repair_inOrder _
  | flush =>
    simp only [step, serve, noted_store, flush_eq]
    exact h
  | put key text => exact h

theorem after_collection_inOrder (h : s.store.collection.InOrder) {events : List Event}
    (hids : ∀ e ∈ events, ∀ supply ∈ e.request.supply?, supply.SparesCommon) :
    (s.after events).store.collection.InOrder := by
  induction events generalizing s with
  | nil => exact h
  | cons e events ih =>
    obtain ⟨he, hevents⟩ := List.forall_mem_cons.mp hids
    exact ih (step_collection_inOrder h he) hevents

theorem opened_inOrder (storage : Storage) : (opened storage).store.collection.InOrder :=
  Collection.repair_inOrder _

/-- **The collection in memory is in order at all times**: the common category comes
first and only once, every link belongs to a category, the pinned links have the
ranks `0, 1, …, n - 1` and no other link has one, and the links stand as they are
compared, so that they are the pins followed by all others, as they are shown. -/
theorem collection_inOrder_at_all_times (storage : Storage) (events : List Event)
    (hids : ∀ e ∈ events, ∀ supply ∈ e.request.supply?, supply.SparesCommon) :
    let store := ((opened storage).after events).store
    (∃ c rest, store.categories = c :: rest ∧ c.id = "common" ∧ ∀ d ∈ rest, d.id ≠ "common") ∧
    (∀ l ∈ store.links, ∃ c ∈ store.categories, c.id = l.categoryId) ∧
    ((store.links.filter (·.pinned)).map (·.pinnedOrder)).Perm
      ((List.range (store.links.countP (·.pinned))).map fun k : Nat => some (k : Int)) ∧
    (∀ l ∈ store.links, l.pinned = false → l.pinnedOrder = none) ∧
    store.links.Pairwise (fun a b => (a.compare b).isLE) ∧
    store.links = store.pins ++ store.view "all" := by
  intro store
  have h : store.collection.InOrder := after_collection_inOrder (opened_inOrder storage) hids
  exact ⟨h.headed, fun l hl => Category.isKnown_iff.mp (h.known l hl), h.arranged.counted.ranks,
    h.arranged.counted.unranked, h.arranged.shown, h.arranged.shown.eq_pins_append⟩

/-- A pinned link is added while the storage refuses to be written. -/
theorem links_eq_after_refused_add :
    let supply : Supply := ⟨fun _ => "5b1e7c02-93d4-4f6a-8c1d-000000000000", 7, Supply.cut 16 [], Supply.cut 12 []⟩
    let add : Event := ⟨.command supply (.addLink ⟨"lean-lang.org", "Lean", none, none, none, true⟩), false, true⟩
    let store := ((opened Storage.empty).after [add]).store
    store.links = store.pins ++ store.view "all" := by
  intro supply add store
  have hids : ∀ e ∈ [add], ∀ s ∈ e.request.supply?, s.SparesCommon := by
    intro e he s hs k
    obtain rfl := List.mem_singleton.mp he
    obtain rfl : supply = s := Option.some.inj hs
    show "5b1e7c02-93d4-4f6a-8c1d-000000000000" ≠ Category.commonId
    decide
  obtain ⟨-, -, -, -, -, heq⟩ := collection_inOrder_at_all_times Storage.empty [add] hids
  exact heq

end Session

end Store

end Bookmarks
