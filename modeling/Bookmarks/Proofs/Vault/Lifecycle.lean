import Bookmarks.Proofs.Vault.Session
import Bookmarks.Vault.Flags

/-! # Locked or unlocked

A vault is unlocking only inside of a call.  **Between two calls it is locked or unlocked**
(`Settled`), whichever calls were abandoned on the way and whatever the storage refused.

What an unlocking comes to depends on what the storage lets it read (`readable?`) and on
nothing else; in particular not on whether the vault was unlocked before (`Session.step_unlock`).
-/
namespace Bookmarks.Vault

/-- The password of the session. -/
def password? : Vault → Option String
  | .unlocked password _ => some password
  | _ => none

/-- No call is in the middle of unlocking the vault. -/
def Settled (vault : Vault) : Prop := vault ≠ .unlocking

theorem Settled.locked_or_unlocked {vault : Vault} (h : vault.Settled) :
    vault = .locked ∨ ∃ password links, vault = .unlocked password links := by
  cases vault with
  | locked => exact Or.inl rfl
  | unlocking => exact absurd rfl h
  | unlocked password links => exact Or.inr ⟨password, links, rfl⟩

theorem settled_locked : Settled .locked := nofun

theorem settled_unlocked (password : String) (links : List Link) : Settled (.unlocked password links) := nofun

theorem Settled.withPassword {vault : Vault} (h : vault.Settled) (password : String) :
    (vault.withPassword password).Settled := by
  obtain rfl | ⟨old, links, rfl⟩ := h.locked_or_unlocked
  · exact settled_locked
  · exact settled_unlocked password links

/-- Abandoning settles a vault. -/
theorem settled_abandon (vault : Vault) : vault.abandon.Settled := by
  cases vault with
  | locked => exact settled_locked
  | unlocking => exact settled_locked
  | unlocked password links => exact settled_unlocked password links

variable {cipher : Cipher} {supply : Supply} {vault : Vault} {storage : Storage}

theorem links_of_not_unlocked (h : vault.isUnlocked = false) : vault.links = .error .locked := by
  cases vault with
  | locked => rfl
  | unlocking => rfl
  | unlocked password links => cases h

/-! ## Unlocking -/

theorem isSome_readable?_iff {password : String} :
    (readable? cipher password storage).isSome ↔
      storage.refusesReads = false ∧ (openStored cipher password (storage.stored Storage.tokenKey)).isSome := by
  unfold readable?
  cases storage.refusesReads with
  | true => exact ⟨nofun, fun ⟨h, _⟩ => nomatch h⟩
  | false => exact ⟨fun h => ⟨rfl, h⟩, And.right⟩

theorem isUnlocked_unlockedBy (password : String) (seen : Option Payload) :
    (unlockedBy password seen).isUnlocked = seen.isSome := by
  cases seen <;> rfl

/-- An unlocking is suspended only with a token to open, and giving it up there locks the
vault. -/
theorem runAbandoned_unlock_eq (supply : Supply) (vault : Vault) (storage : Storage) (password : String) :
    runAbandoned supply vault storage (.unlock password) =
      if storage.refusesReads then (some (.ok (.opened false)), .locked)
      else match storage.stored Storage.tokenKey with
        | none => (some (.ok (.opened true)), .unlocked password [])
        | some _ => (none, .locked) := by
  unfold runAbandoned start Storage.read
  cases storage.refusesReads with
  | true => rfl
  | false => cases storage.stored Storage.tokenKey <;> rfl

/-- Without a token to wait for, it comes to what it would have come to anyway. -/
theorem runAbandoned_unlock_of_answered {password : String}
    (h : (runAbandoned supply vault storage (.unlock password)).1 ≠ none) :
    (runAbandoned supply vault storage (.unlock password)).2 = unlockedBy password (readable? cipher password storage) := by
  rw [runAbandoned_unlock_eq] at h ⊢
  unfold readable?
  cases hr : storage.refusesReads with
  | true => rfl
  | false =>
    cases ht : storage.stored Storage.tokenKey with
    | none => rfl
    | some token =>
      rw [hr, ht] at h
      exact absurd rfl h

theorem runAbandoned_unlock_of_given_up {password : String}
    (h : (runAbandoned supply vault storage (.unlock password)).1 = none) :
    (runAbandoned supply vault storage (.unlock password)).2 = .locked := by
  rw [runAbandoned_unlock_eq] at h ⊢
  cases hr : storage.refusesReads with
  | true => rfl
  | false =>
    cases ht : storage.stored Storage.tokenKey with
    | none =>
      rw [hr, ht] at h
      cases h
    | some token => rfl

/-! ## What a call leaves -/

theorem Settled.runAbandoned (h : vault.Settled) (supply : Supply) (storage : Storage) (call : VaultCall) :
    (runAbandoned supply vault storage call).2.Settled := by
  unfold Vault.runAbandoned
  have hbegins := start_begins supply vault storage call
  generalize start supply vault storage call = started at hbegins ⊢
  cases hbegins with
  | same _ _ => exact h
  | unread _ => exact settled_locked
  | fresh password _ => exact settled_unlocked password []
  | opening _ _ _ => exact settled_locked
  | sealing _ _ => exact settled_abandon vault
  | rekeying _ _ => exact settled_abandon vault

/-- Only an unlocking takes a vault through `unlocking`, and each of its ends leaves
that. -/
theorem Settled.run (h : vault.Settled) (cipher : Cipher) (supply : Supply) (storage : Storage) (call : VaultCall) :
    (run cipher supply vault storage call).vault.Settled := by
  have hends := run_ends cipher supply vault storage call
  generalize Vault.run cipher supply vault storage call = outcome at hends ⊢
  cases hends with
  | same _ _ => exact h
  | shut _ => exact settled_locked
  | @opened password payload _ => exact settled_unlocked password payload.links
  | refused _ _ _ => exact h
  | @sealed password _ next _ _ _ _ _ => exact settled_unlocked password next
  | rekeyed new _ _ => exact h.withPassword new

/-! ## Sessions -/

namespace Session

/-- The session after the flags of the vault were written, or refused. -/
def saveFlags (s : Session) (flags : VaultFlags) (refusesWrites : Bool) : Session :=
  ⟨s.vault, (flags.save { s.storage with refusesWrites }).2⟩

/-- The sessions between two calls: one starts locked over any storage, and goes on with
what it is asked, what is done to its storage, and what the storage refuses. -/
inductive Reachable (cipher : Cipher) : Session → Prop where
  | opened (storage : Storage) : Reachable cipher (opened storage)
  | step {s : Session} (h : Reachable cipher s) (e : Event) : Reachable cipher (s.step cipher e)
  | saveFlags {s : Session} (h : Reachable cipher s) (flags : VaultFlags) (refusesWrites : Bool) :
    Reachable cipher (s.saveFlags flags refusesWrites)

variable {s : Session}

/-- **What one event preserves.** -/
theorem settled_step (h : s.vault.Settled) (cipher : Cipher) (e : Event) : (s.step cipher e).vault.Settled := by
  obtain ⟨request, refusesReads, refusesWrites⟩ := e
  cases request with
  | call supply call abandoned =>
    cases abandoned with
    | true => exact h.runAbandoned supply _ call
    | false => exact h.run cipher supply _ call
  | lock => exact settled_locked
  | put _ _ => exact h

theorem Reachable.settled (h : Reachable cipher s) : s.vault.Settled := by
  induction h with
  | opened _ => exact settled_locked
  | step _ e ih => exact settled_step ih cipher e
  | saveFlags _ _ _ ih => exact ih

/-- **What an unlocking comes to.** -/
theorem serve_unlock (s : Session) (cipher : Cipher) (supply : Supply) (password : String) (abandoned : Bool) :
    let givenUp := abandoned = true ∧ (Vault.runAbandoned supply s.vault s.storage (.unlock password)).1 = none
    (givenUp → (s.serve cipher (.call supply (.unlock password) abandoned)).vault = .locked) ∧
    (¬ givenUp → (s.serve cipher (.call supply (.unlock password) abandoned)).vault =
      unlockedBy password (readable? cipher password s.storage)) := by
  intro givenUp
  cases abandoned with
  | true => exact ⟨fun h => runAbandoned_unlock_of_given_up h.2, fun h => runAbandoned_unlock_of_answered (h ⟨rfl, ·⟩)⟩
  | false =>
    refine ⟨nofun, fun _ => ?_⟩
    exact congrArg Outcome.vault (run_unlock_eq cipher supply s.vault s.storage password)

/-- What opens a session: the token, or that there is none. -/
theorem isSome_openStored_iff (cipher : Cipher) (password : String) (token : Option String) :
    (openStored cipher password token).isSome ↔
      token = none ∨ ∃ text, token = some text ∧
        (Payload.accept (Payload.codec.openText cipher password text)).isSome := by
  cases token with
  | none => exact ⟨fun _ => Or.inl rfl, fun _ => rfl⟩
  | some text =>
    constructor
    · intro h
      exact Or.inr ⟨text, rfl, h⟩
    · rintro (h | ⟨_, ⟨⟩, h⟩)
      · cases h
      · exact h

/-- An unlocking, from any state, is given up if it is abandoned where it waits for the key.
It ends unlocked exactly when it is not given up, the token can be read, and there is none or it
opens under the password; and it never tries to write. -/
theorem step_unlock (s : Session) (cipher : Cipher) (supply : Supply) (password : String)
    (abandoned refusesReads refusesWrites : Bool) :
    let storage : Storage := { s.storage with refusesReads, refusesWrites }
    let next := s.step cipher ⟨.call supply (.unlock password) abandoned, refusesReads, refusesWrites⟩
    let givenUp := abandoned = true ∧ (Vault.runAbandoned supply s.vault storage (.unlock password)).1 = none
    (next.vault.isUnlocked ↔
      ¬ givenUp ∧ refusesReads = false ∧
        (s.token = none ∨ ∃ token, s.token = some token ∧
          (Payload.accept (Payload.codec.openText cipher password token)).isSome)) ∧
    next.storage = storage := by
  intro storage next givenUp
  refine ⟨?_, ?_⟩
  · rw [← isSome_openStored_iff]
    obtain ⟨hup, hon⟩ := serve_unlock ⟨s.vault, storage⟩ cipher supply password abandoned
    by_cases hgiven : givenUp
    · have hlocked : next.vault = .locked := hup hgiven
      simp only [hlocked, hgiven, isUnlocked, not_true, false_and, Bool.false_eq_true]
    · have hnext : next.vault = unlockedBy password (readable? cipher password storage) := hon hgiven
      rw [hnext, isUnlocked_unlockedBy, isSome_readable?_iff]
      exact ⟨fun ⟨hreads, hopen⟩ => ⟨hgiven, hreads, hopen⟩, fun ⟨_, hreads, hopen⟩ => ⟨hreads, hopen⟩⟩
  · cases abandoned with
    | true => rfl
    | false => exact congrArg Outcome.storage (run_unlock_eq cipher supply s.vault storage password)

end Session

end Bookmarks.Vault
