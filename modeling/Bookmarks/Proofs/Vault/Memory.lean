import Bookmarks.Proofs.Vault.Lifecycle
import Bookmarks.Vault.Memory

/-! # What is in memory of a vault

The state, the password and the links are assigned one by one, while a `Vault` leaves them no
room to disagree.  **Whatever is called, abandoned or refused, the fields stand for the vault**
that a session of `Vault` comes to under the same calls, with the same answers and the same
storage (`Session.reachable_iff`).  One call is enough to see that (`run_ofVault`,
`runAbandoned_ofVault`); which fields stand for a vault at all can be told from the fields
(`exists_ofVault_iff`).

So between two calls the state is locked or unlocked, there is a password exactly while it is
unlocked, and no link is left in memory while it is not.
-/
namespace Bookmarks.VaultMemory

/-- The fields that stand for a vault. -/
def ofVault : Vault → VaultMemory
  | .locked => new
  | .unlocking => ⟨.unlocking, none, []⟩
  | .unlocked password links => ⟨.unlocked, some password, links⟩

variable {cipher : Cipher} {supply : Supply} {m : VaultMemory} {vault : Vault} {storage : Storage}

/-- **Fields stand for a vault exactly if they do not disagree**: there is a password exactly
while the state is unlocked, and there are no links while it is not. -/
theorem exists_ofVault_iff : (∃ vault, m = ofVault vault) ↔
    (m.password.isSome ↔ m.state = .unlocked) ∧ (m.state ≠ .unlocked → m.links = []) := by
  obtain ⟨state, password, links⟩ := m
  constructor
  · rintro ⟨_ | _ | ⟨password, links⟩, heq⟩ <;> cases heq
    · exact ⟨⟨nofun, nofun⟩, fun _ => rfl⟩
    · exact ⟨⟨nofun, nofun⟩, fun _ => rfl⟩
    · exact ⟨⟨fun _ => rfl, fun _ => rfl⟩, fun h => absurd rfl h⟩
  · rintro ⟨hpassword, hlinks⟩
    by_cases hstate : state = .unlocked
    · obtain ⟨held, rfl⟩ := Option.isSome_iff_exists.mp (hpassword.mpr hstate)
      exact ⟨.unlocked held links, by rw [hstate]; rfl⟩
    · obtain rfl : links = [] := hlinks hstate
      obtain rfl : password = none := Option.not_isSome_iff_eq_none.mp fun h => hstate (hpassword.mp h)
      cases state with
      | locked => exact ⟨.locked, rfl⟩
      | unlocking => exact ⟨.unlocking, rfl⟩
      | unlocked => exact absurd rfl hstate

theorem state_ofVault_eq_unlocked_iff : (ofVault vault).state = .unlocked ↔ vault.isUnlocked = true := by
  cases vault with
  | locked => exact ⟨nofun, nofun⟩
  | unlocking => exact ⟨nofun, nofun⟩
  | unlocked password links => exact ⟨fun _ => rfl, fun _ => rfl⟩

/-- Between two calls the state is not `unlocking`. -/
theorem state_ofVault_of_settled (h : vault.Settled) :
    (ofVault vault).state = .locked ∨ (ofVault vault).state = .unlocked := by
  obtain rfl | ⟨password, links, rfl⟩ := h.locked_or_unlocked
  · exact Or.inl rfl
  · exact Or.inr rfl

theorem ofVault_eq_new (h : vault.Settled) (hnot : (ofVault vault).state ≠ .unlocked) : ofVault vault = new := by
  obtain rfl | ⟨password, links, rfl⟩ := h.locked_or_unlocked
  · rfl
  · exact absurd rfl hnot

@[simp] theorem isUnlocked_ofVault (vault : Vault) : (ofVault vault).isUnlocked = vault.isUnlocked := by
  cases vault <;> rfl

@[simp] theorem shown_ofVault (vault : Vault) : (ofVault vault).shown = vault.links := by
  cases vault <;> rfl

/-- Locking leaves nothing behind, whatever the fields were. -/
@[simp] theorem lock_eq (m : VaultMemory) : m.lock = new := rfl

/-! ## A vault that is not unlocked -/

theorem shown_of_state_ne (h : m.state ≠ .unlocked) : m.shown = .error .locked :=
  if_neg (by simpa [isUnlocked] using h)

theorem requireUnlocked_of_state_ne (h : m.state ≠ .unlocked) : m.requireUnlocked = .error .locked := by
  unfold requireUnlocked
  split
  · next heq => exact absurd heq h
  · rfl

/-- A command is answered before anything is looked at. -/
theorem start_edit_of_state_ne (h : m.state ≠ .unlocked) (supply : Supply) (storage : Storage)
    (command : VaultCommand) :
    m.start supply storage (.edit command) = (m, .answered (.error .locked)) := by
  simp only [start, startEdit, requireUnlocked_of_state_ne h]

/-! ## One call -/

/-- What stands for the first part of a call. -/
def ofStarted : Started → VaultMemory × Progress
  | .answered answer vault => (ofVault vault, .answered answer)
  | .suspended vault work => (ofVault vault, .suspended work)

/-- What stands for what a call comes to. -/
def ofOutcome (o : Vault.Outcome) : Outcome :=
  ⟨o.answer, ofVault o.vault, o.storage⟩

theorem startEdit_ofVault (supply : Supply) (vault : Vault) (command : VaultCommand) :
    (ofVault vault, (ofVault vault).startEdit supply command) = ofStarted (vault.startEdit supply command) := by
  cases vault with
  | locked => rfl
  | unlocking => rfl
  | unlocked password links =>
    rw [ofVault]
    simp only [startEdit, Vault.startEdit, commit, requireUnlocked]
    cases command.perform supply links with
    | error e => rfl
    | ok made =>
      obtain ⟨next, reply⟩ := made
      by_cases hplace : command.isReorder ∧ next = links
      · simp only [if_pos hplace, ofStarted, ofVault]
      · simp only [if_neg hplace, ofStarted, ofVault]

/-- **The first part of a call**, from the fields that stand for a vault. -/
theorem start_ofVault (supply : Supply) (vault : Vault) (storage : Storage) (call : VaultCall) :
    (ofVault vault).start supply storage call = ofStarted (Vault.start supply vault storage call) := by
  cases call with
  | unlock password =>
    simp only [start, startUnlock, Vault.start, lock_eq]
    cases storage.read Storage.tokenKey with
    | error e => rfl
    | ok token => cases token <;> rfl
  | changePassword old new =>
    simp only [start, Vault.start]
    cases storage.read Storage.tokenKey <;> rfl
  | edit command => exact startEdit_ofVault supply vault command

theorem writeToken_ofVault (vault : Vault) (storage : Storage) (token : String) (next : Vault) (reply : VaultReply) :
    (ofVault vault).writeToken storage token (ofVault next) reply =
      ofOutcome (vault.writeToken storage token next reply) := by
  unfold writeToken Vault.writeToken
  obtain ⟨answer, after⟩ := storage.write Storage.tokenKey (some token)
  cases answer with
  | ok _ => rfl
  | error e => rfl

/-- The password is assigned only while the state is unlocked. -/
theorem withPassword_ofVault (vault : Vault) (password : String) :
    (if (ofVault vault).isUnlocked then { ofVault vault with password := some password } else ofVault vault) =
      ofVault (vault.withPassword password) := by
  cases vault <;> rfl

/-- **A call that is not abandoned**, from the fields that stand for a vault. -/
theorem run_ofVault (cipher : Cipher) (supply : Supply) (vault : Vault) (storage : Storage) (call : VaultCall) :
    (ofVault vault).run cipher supply storage call = ofOutcome (Vault.run cipher supply vault storage call) := by
  unfold run Vault.run
  rw [start_ofVault]
  have hbegins := Vault.start_begins supply vault storage call
  generalize Vault.start supply vault storage call = started at hbegins ⊢
  cases hbegins with
  | same _ answer => rfl
  | unread password => rfl
  | fresh password _ => rfl
  | opening password token _ =>
    simp only [ofStarted, finish, Vault.finish, Vault.openStored]
    cases Payload.accept (Payload.codec.openText cipher password token) with
    | none => rfl
    | some payload => rfl
  | @sealing password links next command reply hvault _ =>
    -- the links are assigned under the password that they were sealed under
    subst hvault
    exact writeToken_ofVault (.unlocked password links) storage _ (.unlocked password next) reply
  | rekeying old new =>
    simp only [ofStarted, finish, Vault.finish, withPassword_ofVault]
    cases Vault.openStored cipher old (storage.stored Storage.tokenKey) with
    | none => rfl
    | some payload => exact writeToken_ofVault vault storage _ (vault.withPassword new) .done

/-- **A call that is abandoned**, from the fields that stand for a vault that no call is in the
middle of. -/
theorem runAbandoned_ofVault (h : vault.Settled) (supply : Supply) (storage : Storage) (call : VaultCall) :
    (ofVault vault).runAbandoned supply storage call =
      ((Vault.runAbandoned supply vault storage call).1, ofVault (Vault.runAbandoned supply vault storage call).2) := by
  -- The fields settle only where there is a guard.  A vault settles whatever call is abandoned,
  -- which is the same as long as no call begins in the middle of an unlocking.
  have habandon : vault.abandon = vault := by
    obtain rfl | ⟨password, links, rfl⟩ := h.locked_or_unlocked <;> rfl
  unfold runAbandoned Vault.runAbandoned
  rw [start_ofVault]
  have hbegins := Vault.start_begins supply vault storage call
  generalize Vault.start supply vault storage call = started at hbegins ⊢
  cases hbegins with
  | same _ answer => rfl
  | unread password => rfl
  | fresh password _ => rfl
  | opening password token _ => rfl
  | sealing _ _ => simp only [ofStarted, abandon, habandon]
  | rekeying old new => simp only [ofStarted, abandon, habandon]

/-! ## Sessions -/

/-- The memory of a vault over its storage. -/
structure Session where
  memory : VaultMemory
  storage : Storage

namespace Session

/-- The session over a storage before the first call. -/
def opened (storage : Storage) : Session := ⟨new, storage⟩

/-- The session after a request. -/
def serve (cipher : Cipher) (s : Session) : Vault.Request → Session
  | .call supply call false =>
    let outcome := s.memory.run cipher supply s.storage call
    ⟨outcome.memory, outcome.storage⟩
  | .call supply call true => ⟨(s.memory.runAbandoned supply s.storage call).2, s.storage⟩
  | .lock => ⟨s.memory.lock, s.storage⟩
  | .put key text => ⟨s.memory, s.storage.put key text⟩

/-- The session after an event. -/
def step (cipher : Cipher) (s : Session) (e : Vault.Event) : Session :=
  serve cipher ⟨s.memory, { s.storage with refusesReads := e.refusesReads, refusesWrites := e.refusesWrites }⟩ e.request

/-- The session after the flags of the vault were written, or refused. -/
def saveFlags (s : Session) (flags : VaultFlags) (refusesWrites : Bool) : Session :=
  ⟨s.memory, (flags.save { s.storage with refusesWrites }).2⟩

/-- The text of the token that is stored. -/
def token (s : Session) : Option String := s.storage.stored Storage.tokenKey

/-- The sessions between two calls: one starts with a new memory over any storage, and goes on
with what it is asked, what is done to its storage, and what the storage refuses. -/
inductive Reachable (cipher : Cipher) : Session → Prop where
  | opened (storage : Storage) : Reachable cipher (opened storage)
  | step {s : Session} (h : Reachable cipher s) (e : Vault.Event) : Reachable cipher (s.step cipher e)
  | saveFlags {s : Session} (h : Reachable cipher s) (flags : VaultFlags) (refusesWrites : Bool) :
    Reachable cipher (s.saveFlags flags refusesWrites)

/-- The session that stands for one of a vault. -/
def ofSession (s : Vault.Session) : Session := ⟨ofVault s.vault, s.storage⟩

variable {s : Session}

/-- **One event.** -/
theorem step_ofSession {s : Vault.Session} (h : s.vault.Settled) (cipher : Cipher) (e : Vault.Event) :
    (ofSession s).step cipher e = ofSession (s.step cipher e) := by
  obtain ⟨request, refusesReads, refusesWrites⟩ := e
  cases request with
  | call supply call abandoned =>
    cases abandoned with
    | true =>
      simp only [step, serve, ofSession, runAbandoned_ofVault h]
      rfl
    | false =>
      simp only [step, serve, ofSession, run_ofVault]
      rfl
  | lock => rfl
  | put key text => rfl

/-- **The sessions of the fields are those of a vault**: by induction, each of them stands for
one that came about in the same way, and each of those is stood for. -/
theorem reachable_iff : Reachable cipher s ↔ ∃ t, Vault.Session.Reachable cipher t ∧ s = ofSession t := by
  constructor
  · intro h
    induction h with
    | opened storage => exact ⟨_, .opened storage, rfl⟩
    | step _ e ih =>
      obtain ⟨t, ht, rfl⟩ := ih
      exact ⟨_, ht.step e, step_ofSession ht.settled cipher e⟩
    | saveFlags _ flags refusesWrites ih =>
      obtain ⟨t, ht, rfl⟩ := ih
      exact ⟨_, ht.saveFlags flags refusesWrites, rfl⟩
  · rintro ⟨t, ht, rfl⟩
    induction ht with
    | opened storage => exact .opened storage
    | step ht e ih =>
      rw [← step_ofSession ht.settled]
      exact ih.step e
    | saveFlags _ flags refusesWrites ih => exact ih.saveFlags flags refusesWrites

/-- **Nothing that can be seen of the fields is different from the vault they stand for**:
neither the links that are shown nor what a call answers, whether or not it is abandoned, and
what it leaves in the storage. -/
theorem Reachable.seen_as_vault (h : Reachable cipher s) : ∃ t, Vault.Session.Reachable cipher t ∧
    s.storage = t.storage ∧ s.memory.isUnlocked = t.vault.isUnlocked ∧ s.memory.shown = t.vault.links ∧
    ∀ supply storage call,
      (s.memory.run cipher supply storage call).answer = (Vault.run cipher supply t.vault storage call).answer ∧
      (s.memory.run cipher supply storage call).storage = (Vault.run cipher supply t.vault storage call).storage ∧
      (s.memory.runAbandoned supply storage call).1 = (Vault.runAbandoned supply t.vault storage call).1 := by
  obtain ⟨t, ht, rfl⟩ := reachable_iff.mp h
  refine ⟨t, ht, rfl, isUnlocked_ofVault t.vault, shown_ofVault t.vault, fun supply storage call => ?_⟩
  have hrun := run_ofVault cipher supply t.vault storage call
  have habandoned := runAbandoned_ofVault ht.settled supply storage call
  exact ⟨congrArg Outcome.answer hrun, congrArg Outcome.storage hrun, congrArg Prod.fst habandoned⟩

/-- **Between two calls the state is locked or unlocked, and only an unlocked vault has
anything to give.**  There is a password exactly while the state is unlocked.  While it is not,
there are no links in memory and none are shown, and a command on links is refused before it
changes a field or the storage, whether or not it is abandoned.

An unlocking, from any such state, is given up if it is abandoned where it waits for the key.
It ends unlocked exactly when it is not given up, the token can be read, and there is none or it
opens under the password; otherwise the state is locked, and neither a password nor a link is
left.  It never tries to write. -/
theorem locked_or_unlocked_between_calls (h : Reachable cipher s) :
    (s.memory.state = .locked ∨ s.memory.state = .unlocked) ∧
    (s.memory.password.isSome ↔ s.memory.state = .unlocked) ∧
    (s.memory.state ≠ .unlocked →
      s.memory.links = [] ∧ s.memory.shown = .error .locked ∧
      ∀ supply command refusesReads refusesWrites,
        let storage : Storage := { s.storage with refusesReads, refusesWrites }
        s.memory.run cipher supply storage (.edit command) = ⟨.error .locked, s.memory, storage⟩ ∧
        s.memory.runAbandoned supply storage (.edit command) = (some (.error .locked), s.memory)) ∧
    ∀ supply password abandoned refusesReads refusesWrites,
      let storage : Storage := { s.storage with refusesReads, refusesWrites }
      let next := s.step cipher ⟨.call supply (.unlock password) abandoned, refusesReads, refusesWrites⟩
      let givenUp := abandoned = true ∧ (s.memory.runAbandoned supply storage (.unlock password)).1 = none
      (next.memory.state = .unlocked ↔
        ¬ givenUp ∧ refusesReads = false ∧
          (s.token = none ∨ ∃ token, s.token = some token ∧
            (Payload.accept (Payload.codec.openText cipher password token)).isSome)) ∧
      (next.memory.state ≠ .unlocked →
        next.memory.state = .locked ∧ next.memory.password = none ∧ next.memory.links = []) ∧
      next.storage = storage := by
  obtain ⟨t, ht, rfl⟩ := reachable_iff.mp h
  obtain ⟨hpassword, hlinks⟩ := exists_ofVault_iff.mp ⟨t.vault, rfl⟩
  refine ⟨state_ofVault_of_settled ht.settled, hpassword, ?_, ?_⟩
  · intro hnot
    refine ⟨hlinks hnot, shown_of_state_ne hnot, ?_⟩
    intro supply command refusesReads refusesWrites storage
    have hstart := start_edit_of_state_ne hnot supply storage command
    exact ⟨by rw [run, hstart], by rw [runAbandoned, hstart]⟩
  · intro supply password abandoned refusesReads refusesWrites storage next givenUp
    obtain ⟨hiff, hstorage⟩ := t.step_unlock cipher supply password abandoned refusesReads refusesWrites
    have hnext : next = ofSession (t.step cipher _) := step_ofSession ht.settled cipher _
    have hgiven : givenUp = (abandoned = true ∧ (Vault.runAbandoned supply t.vault storage (.unlock password)).1 = none) :=
      congrArg (fun r => abandoned = true ∧ r.1 = none) (runAbandoned_ofVault ht.settled supply storage (.unlock password))
    rw [hnext, hgiven]
    refine ⟨state_ofVault_eq_unlocked_iff.trans hiff, ?_, hstorage⟩
    intro hnot
    have hnew : ofVault _ = new := ofVault_eq_new (ht.step _).settled hnot
    rw [ofSession, hnew]
    exact ⟨rfl, rfl, rfl⟩

open Vault.Session (keyedCipher) in
/-- A vault with a link in it is unlocked again, and that is given up; and the password of a
vault is changed that nobody has unlocked. -/
theorem wiped_by_abandoned_unlock :
    let supply : Supply := ⟨fun _ => "c0a4f1d2-57b8-4e03-9d6e-000000000000", 7, Supply.cut 16 [], Supply.cut 12 []⟩
    let event (call : VaultCall) (abandoned : Bool) : Vault.Event := ⟨.call supply call abandoned, false, false⟩
    let add : VaultCall := .edit (.add ⟨"lean-lang.org", "Lean", none, none, none, true⟩)
    let s := ((opened Storage.empty).step keyedCipher (event (.unlock "pw") false)).step keyedCipher (event add false)
    let next := s.step keyedCipher (event (.unlock "pw") true)
    let rekeyed := (opened Storage.empty).step keyedCipher (event (.changePassword "pw" "new") false)
    (s.memory.password = some "pw" ∧ s.memory.links.length = 1 ∧ s.token ≠ none) ∧
    (next.memory.password = none ∧ next.memory.links = [] ∧ next.token = s.token) ∧
    (next.memory.run keyedCipher supply next.storage (.edit (.delete (supply.id 0)))).answer = .error .locked ∧
    rekeyed.token ≠ none ∧ rekeyed.memory.password = none := by
  intro supply event add s next rekeyed
  have hs : Reachable keyedCipher s := .step (.step (.opened _) _) _
  obtain ⟨-, -, -, hunlock⟩ := locked_or_unlocked_between_calls hs
  obtain ⟨-, hwiped, hstorage⟩ := hunlock supply "pw" true false false
  obtain ⟨-, hpassword, hlinks⟩ := hwiped (by decide)
  obtain ⟨-, -, hlocked, -⟩ := locked_or_unlocked_between_calls (hs.step (event (.unlock "pw") true))
  obtain ⟨-, -, hrefused⟩ := hlocked (by decide)
  have hrekeyed : Reachable keyedCipher rekeyed := .step (.opened _) _
  obtain ⟨-, hiff, -, -⟩ := locked_or_unlocked_between_calls hrekeyed
  refine ⟨by decide, ⟨hpassword, hlinks, congrArg (·.stored Storage.tokenKey) hstorage⟩, ?_, by decide, ?_⟩
  · exact congrArg Outcome.answer (hrefused supply (.delete (supply.id 0)) false false).1
  · exact Option.not_isSome_iff_eq_none.mp fun h => absurd (hiff.mp h) (by decide)

end Session

end Bookmarks.VaultMemory
