import Bookmarks.Proofs.Storage
import Bookmarks.Proofs.Vault.Payload

/-! # Sessions of the vault

A session starts with a locked vault over a storage and then takes calls, each of which
may be abandoned where it is suspended, while the storage refuses what it likes.

The invariant (`Agrees`) is that **the stored token, opened with the password of the
session, gives the links in memory**; no token stands for no links.  A change of password
seals again what it opened under the old password, which need not be the password of the
session, so the invariant asks of a token that no two passwords open it to different
links (`OneReading`).
-/
namespace Bookmarks.Vault

/-! ## What a call can do -/

/-- What the first part of a call comes to. -/
inductive Begins (supply : Supply) (vault : Vault) (storage : Storage) : VaultCall → Started → Prop where
  /-- The call is answered and leaves the vault as it was. -/
  | same (call : VaultCall) (answer : Except VaultError VaultReply) :
    Begins supply vault storage call (.answered answer vault)
  /-- The token could not be read. -/
  | unread (password : String) :
    Begins supply vault storage (.unlock password) (.answered (.ok (.opened false)) .locked)
  /-- There is no token yet. -/
  | fresh (password : String) (h : storage.stored Storage.tokenKey = none) :
    Begins supply vault storage (.unlock password) (.answered (.ok (.opened true)) (.unlocked password []))
  | opening (password token : String) (h : storage.stored Storage.tokenKey = some token) :
    Begins supply vault storage (.unlock password) (.suspended .unlocking (.openToken password token))
  | sealing {password : String} {links next : List Link} {command : VaultCommand} {reply : VaultReply}
    (hvault : vault = .unlocked password links) (h : command.perform supply links = .ok (next, reply)) :
    Begins supply vault storage (.edit command) (.suspended vault (.sealLinks password next reply))
  | rekeying (old new : String) :
    Begins supply vault storage (.changePassword old new)
      (.suspended vault (.rekey (storage.stored Storage.tokenKey) old new))

theorem start_begins (supply : Supply) (vault : Vault) (storage : Storage) (call : VaultCall) :
    Begins supply vault storage call (start supply vault storage call) := by
  cases call with
  | unlock password =>
    unfold start Storage.read
    cases hr : storage.refusesReads with
    | true => exact .unread password
    | false =>
      cases ht : storage.stored Storage.tokenKey with
      | none => exact .fresh password ht
      | some token => exact .opening password token ht
  | changePassword old new =>
    unfold start Storage.read
    cases hr : storage.refusesReads with
    | true => exact .same _ _
    | false => exact .rekeying old new
  | edit command =>
    unfold start startEdit
    cases hv : vault with
    | unlocked password links =>
      dsimp only
      split
      · exact .same _ _
      · next next reply hp =>
        split
        · exact .same _ _
        · exact .sealing rfl hp
    | locked => exact .same _ _
    | unlocking => exact .same _ _

/-- The vault changes with the token, and only where the storage takes it. -/
theorem writeToken_eq (vault : Vault) (storage : Storage) (token : String) (next : Vault) (reply : VaultReply) :
    writeToken vault storage token next reply =
      ⟨if storage.refusesWrites then .error (.ofStorage .writeRefused) else .ok reply,
        if storage.refusesWrites then vault else next,
        (storage.write Storage.tokenKey (some token)).2⟩ := by
  unfold writeToken Storage.write
  cases storage.refusesWrites <;> rfl

/-- What a call that is not abandoned comes to. -/
inductive Ends (cipher : Cipher) (supply : Supply) (vault : Vault) (storage : Storage) : VaultCall → Outcome → Prop where
  /-- The call is answered and changes nothing. -/
  | same (call : VaultCall) (answer : Except VaultError VaultReply) :
    Ends cipher supply vault storage call ⟨answer, vault, storage⟩
  /-- The token could not be read, or it does not open. -/
  | shut (password : String) :
    Ends cipher supply vault storage (.unlock password) ⟨.ok (.opened false), .locked, storage⟩
  | opened {password : String} {payload : Payload}
    (h : openStored cipher password (storage.stored Storage.tokenKey) = some payload) :
    Ends cipher supply vault storage (.unlock password)
      ⟨.ok (.opened true), .unlocked password payload.links, storage⟩
  /-- A token was made, and refused. -/
  | refused (call : VaultCall) (token : String) (hw : storage.refusesWrites = true) :
    Ends cipher supply vault storage call
      ⟨.error (.ofStorage .writeRefused), vault, (storage.write Storage.tokenKey (some token)).2⟩
  | sealed {password : String} {links next : List Link} {command : VaultCommand} {reply : VaultReply}
    (hvault : vault = .unlocked password links) (h : command.perform supply links = .ok (next, reply))
    (hw : storage.refusesWrites = false) :
    Ends cipher supply vault storage (.edit command) ⟨.ok reply, .unlocked password next, (storage.write Storage.tokenKey
      (some (Payload.codec.sealText cipher password supply.salt supply.nonce ⟨next⟩))).2⟩
  | rekeyed {old : String} (new : String) {payload : Payload}
    (h : openStored cipher old (storage.stored Storage.tokenKey) = some payload)
    (hw : storage.refusesWrites = false) :
    Ends cipher supply vault storage (.changePassword old new)
      ⟨.ok .done, vault.withPassword new, (storage.write Storage.tokenKey
        (some (Payload.codec.sealText cipher new supply.salt supply.nonce payload))).2⟩

theorem run_ends (cipher : Cipher) (supply : Supply) (vault : Vault) (storage : Storage) (call : VaultCall) :
    Ends cipher supply vault storage call (run cipher supply vault storage call) := by
  unfold run
  have hbegins := start_begins supply vault storage call
  generalize start supply vault storage call = started at hbegins ⊢
  cases hbegins with
  | same _ answer => exact .same _ answer
  | unread password => exact .shut password
  | fresh password ht =>
    have hopen : openStored cipher password (storage.stored Storage.tokenKey) = some ⟨[]⟩ := by rw [ht]; rfl
    exact .opened hopen
  | opening password token ht =>
    dsimp only [finish]
    split
    · next payload hopen => exact .opened (ht.symm ▸ hopen)
    · exact .shut password
  | sealing hv hp =>
    dsimp only [finish]
    rw [writeToken_eq]
    cases hw : storage.refusesWrites with
    | true => exact .refused _ _ hw
    | false => exact .sealed hv hp hw
  | rekeying old new =>
    dsimp only [finish]
    split
    · exact .same _ _
    · next payload hopen =>
      rw [writeToken_eq]
      cases hw : storage.refusesWrites with
      | true => exact .refused _ _ hw
      | false => exact .rekeyed new hopen hw

theorem withPassword_eq_unlocked {vault : Vault} {new password : String} {links : List Link}
    (h : vault.withPassword new = .unlocked password links) :
    ∃ old, vault = .unlocked old links ∧ new = password := by
  cases vault with
  | unlocked old links' =>
    obtain ⟨hpassword, rfl⟩ := Vault.unlocked.inj h
    exact ⟨old, rfl, hpassword⟩
  | locked => cases h
  | unlocking => cases h

/-! ## Unlocking -/

/-- What an unlocking gets to see: nothing if the token cannot be read or does not open,
and an empty payload if there is no token. -/
def readable? (cipher : Cipher) (password : String) (storage : Storage) : Option Payload :=
  if storage.refusesReads then none else openStored cipher password (storage.stored Storage.tokenKey)

/-- The vault after an unlocking that got to see this. -/
def unlockedBy (password : String) : Option Payload → Vault
  | some payload => .unlocked password payload.links
  | none => .locked

/-- **An unlocking, from any state**: it answers whether it got to see a payload, and the
storage is as it was, its attempts included. -/
theorem run_unlock_eq (cipher : Cipher) (supply : Supply) (vault : Vault) (storage : Storage) (password : String) :
    run cipher supply vault storage (.unlock password) =
      ⟨.ok (.opened (readable? cipher password storage).isSome),
        unlockedBy password (readable? cipher password storage), storage⟩ := by
  unfold run start Storage.read readable?
  cases storage.refusesReads with
  | true => rfl
  | false =>
    cases ht : storage.stored Storage.tokenKey with
    | none => rfl
    | some token =>
      simp only [Bool.false_eq_true, if_false, finish]
      cases openStored cipher password (some token) <;> rfl

/-! ## Sessions -/

/-- What is asked of a vault, or happens to its storage. -/
inductive Request where
  | call (supply : Supply) (call : VaultCall) (abandoned : Bool)
  | lock
  /-- Somebody else puts a text, or nothing, under a key. -/
  | put (key : String) (text : Option String)

/-- A request, and what the storage refuses while it is served. -/
structure Event where
  request : Request
  refusesReads : Bool
  refusesWrites : Bool

/-- An event that does not touch the token from outside; the time it comes at is a
number of sixty-four bits. -/
structure Event.Owned (e : Event) : Prop where
  key : ∀ key text, e.request = .put key text → key ≠ Storage.tokenKey
  now : ∀ supply call abandoned, e.request = .call supply call abandoned → IsRank supply.now

/-- The links in memory. -/
def held : Vault → List Link
  | .unlocked _ links => links
  | _ => []

/-- A vault over its storage. -/
structure Session where
  vault : Vault
  storage : Storage

namespace Session

/-- The session over a storage, with the vault locked. -/
def opened (storage : Storage) : Session := ⟨.locked, storage⟩

/-- The session after a request. -/
def serve (cipher : Cipher) (s : Session) : Request → Session
  | .call supply call false =>
    let outcome := run cipher supply s.vault s.storage call
    ⟨outcome.vault, outcome.storage⟩
  | .call supply call true => ⟨(runAbandoned supply s.vault s.storage call).2, s.storage⟩
  | .lock => ⟨.locked, s.storage⟩
  | .put key text => ⟨s.vault, s.storage.put key text⟩

/-- The session after an event. -/
def step (cipher : Cipher) (s : Session) (e : Event) : Session :=
  serve cipher ⟨s.vault, { s.storage with refusesReads := e.refusesReads, refusesWrites := e.refusesWrites }⟩ e.request

/-- The session after one event and then another. -/
def after (cipher : Cipher) (s : Session) (events : List Event) : Session :=
  events.foldl (step cipher) s

/-- The text of the token that is stored. -/
def token (s : Session) : Option String := s.storage.stored Storage.tokenKey

/-! ## The token and the links in memory -/

/-- Under any two passwords that open it a token gives the same links. -/
def OneReading (cipher : Cipher) (token : Option String) : Prop :=
  ∀ p q P Q, openStored cipher p token = some P → openStored cipher q token = some Q → P = Q

/-- While the vault is unlocked, its token gives the links in memory, and they can be
stored. -/
def Agrees (cipher : Cipher) (s : Session) : Prop :=
  ∀ password links, s.vault = .unlocked password links →
    openStored cipher password s.token = some ⟨links⟩ ∧ ∀ l ∈ links, l.Storable

variable {cipher : Cipher} {s : Session}

/-- A vault that is not unlocked holds nothing that could disagree. -/
theorem agrees_locked (storage : Storage) : Agrees cipher ⟨.locked, storage⟩ :=
  fun _ _ h => nomatch h

theorem Agrees.of_token_eq (h : Agrees cipher s) {storage : Storage}
    (ht : storage.stored Storage.tokenKey = s.token) : Agrees cipher ⟨s.vault, storage⟩ := by
  intro password links hv
  rw [token, ht]
  exact h password links hv

/-- A vault is unlocked with what its token gives. -/
theorem agrees_opened {storage : Storage} {password : String} {payload : Payload}
    (h : openStored cipher password (storage.stored Storage.tokenKey) = some payload) :
    Agrees cipher ⟨.unlocked password payload.links, storage⟩ := by
  rintro _ _ ⟨⟩
  exact ⟨h, storable_of_openStored h⟩

/-- A vault without a token is unlocked with nothing in it. -/
theorem agrees_fresh {storage : Storage} {password : String} (h : storage.stored Storage.tokenKey = none) :
    Agrees cipher ⟨.unlocked password [], storage⟩ := by
  have hopen : openStored cipher password (storage.stored Storage.tokenKey) = some ⟨[]⟩ := by rw [h]; rfl
  exact agrees_opened hopen

/-- Links that were sealed and written are in memory. -/
theorem agrees_sealed (hcipher : cipher.Lawful) {storage : Storage} {password : String} {links : List Link}
    {salt : Octets 16} {nonce : Octets 12} (hlinks : ∀ l ∈ links, l.Storable)
    (ht : storage.stored Storage.tokenKey =
      some (Payload.codec.sealText cipher password salt nonce ⟨links⟩)) :
    Agrees cipher ⟨.unlocked password links, storage⟩ := by
  rintro _ _ ⟨⟩
  refine ⟨?_, hlinks⟩
  rw [token, ht]
  exact openStored_sealText hcipher password salt nonce hlinks

theorem Agrees.runAbandoned (h : Agrees cipher s) (supply : Supply) (call : VaultCall) :
    Agrees cipher ⟨(runAbandoned supply s.vault s.storage call).2, s.storage⟩ := by
  unfold Vault.runAbandoned
  have habandon : Agrees cipher ⟨s.vault.abandon, s.storage⟩ := by
    unfold abandon
    split
    · exact agrees_locked _
    · exact h
  have hbegins := start_begins supply s.vault s.storage call
  generalize start supply s.vault s.storage call = started at hbegins ⊢
  cases hbegins with
  | same _ _ => exact h
  | unread _ => exact agrees_locked _
  | fresh password ht => exact agrees_fresh ht
  | opening _ _ _ => exact agrees_locked _
  | sealing _ _ => exact habandon
  | rekeying _ _ => exact habandon

/-- A call that is not abandoned opens the token, or writes one for the links that are in
memory afterwards. -/
theorem Agrees.run (hcipher : cipher.Lawful) (h : Agrees cipher s) (hone : OneReading cipher s.token)
    {supply : Supply} (hnow : IsRank supply.now) (hlen : s.vault.held.length ≤ rankCount) (call : VaultCall) :
    Agrees cipher
      ⟨(run cipher supply s.vault s.storage call).vault, (run cipher supply s.vault s.storage call).storage⟩ := by
  have hends := run_ends cipher supply s.vault s.storage call
  generalize Vault.run cipher supply s.vault s.storage call = outcome at hends ⊢
  cases hends with
  | same _ _ => exact h
  | shut _ => exact agrees_locked _
  | opened hopen => exact agrees_opened hopen
  | refused _ _ hw => exact h.of_token_eq (Storage.stored_write_of_refused hw _)
  | sealed hv hp hw =>
    rw [hv] at hlen
    have hlinks := (h _ _ hv).2
    exact agrees_sealed hcipher (VaultCommand.perform_storable hlinks hnow hlen hp)
      (Storage.stored_write_of_accepted hw)
  | @rekeyed old new payload hopen hw =>
    intro password links hv
    -- the session goes on under the new password, with the links it had
    obtain ⟨password', hv', rfl⟩ := withPassword_eq_unlocked hv
    obtain ⟨hopen', hlinks⟩ := h password' links hv'
    obtain rfl : payload = ⟨links⟩ := hone old password' payload ⟨links⟩ hopen hopen'
    exact agrees_sealed hcipher hlinks (Storage.stored_write_of_accepted hw) new links rfl

/-- **What one event preserves.** -/
theorem Agrees.step (hcipher : cipher.Lawful) (h : Agrees cipher s) (hone : OneReading cipher s.token)
    (hlen : s.vault.held.length ≤ rankCount) {e : Event} (he : e.Owned) : Agrees cipher (s.step cipher e) := by
  obtain ⟨request, refusesReads, refusesWrites⟩ := e
  obtain ⟨hkey, hnow⟩ := he
  -- refusing changes nothing that is stored
  have hunder : Agrees cipher ⟨s.vault, { s.storage with refusesReads, refusesWrites }⟩ := h
  cases request with
  | call supply call abandoned =>
    cases abandoned with
    | true => exact hunder.runAbandoned supply call
    | false => exact hunder.run hcipher hone (hnow supply call false rfl) hlen call
  | lock => exact agrees_locked _
  | put key text => exact hunder.of_token_eq (Storage.stored_put_of_ne (Ne.symm (hkey key text rfl)) _ _)

/-- By induction on the events; at no time is the token read in two ways, and no list
of links is too long to be counted. -/
theorem Agrees.after (hcipher : cipher.Lawful) (h : Agrees cipher s) {events : List Event}
    (howned : ∀ e ∈ events, e.Owned) (hone : ∀ n, OneReading cipher (s.after cipher (events.take n)).token)
    (hlen : ∀ n, (s.after cipher (events.take n)).vault.held.length ≤ rankCount) :
    Agrees cipher (s.after cipher events) := by
  induction events generalizing s with
  | nil => exact h
  | cons e events ih =>
    obtain ⟨he, hevents⟩ := List.forall_mem_cons.mp howned
    have hstep : Agrees cipher (s.step cipher e) := h.step hcipher (hone 0) (hlen 0) he
    exact ih hstep hevents (fun n => hone (n + 1)) fun n => hlen (n + 1)

/-- Unlocking with a password that opens the token to some links, while reads are
accepted. -/
theorem run_unlock {storage : Storage} {password : String} {links : List Link} (hreads : storage.refusesReads = false)
    (h : openStored cipher password (storage.stored Storage.tokenKey) = some ⟨links⟩) (supply : Supply)
    (vault : Vault) :
    Vault.run cipher supply vault storage (.unlock password) =
      ⟨.ok (.opened true), .unlocked password links, storage⟩ := by
  have hseen : readable? cipher password storage = some ⟨links⟩ := by
    rw [readable?, hreads]
    exact h
  rw [run_unlock_eq, hseen]
  rfl

/-- **While the vault is unlocked, the stored token gives the links in memory** under
the password of the session, where no token stands for no links.  So, while reads are
accepted, locking and unlocking again with that password gives the same links back and
leaves the token alone.

The token changes only through the session, and none of the tokens on the way is opened
by two passwords to different links.  No list comes to hold more links than there are
ranks of sixty-four bits. -/
theorem unlocked_agrees_with_token (hcipher : cipher.Lawful) (storage : Storage) (events : List Event)
    (howned : ∀ e ∈ events, e.Owned)
    (hone : ∀ n, OneReading cipher ((opened storage).after cipher (events.take n)).token)
    (hlen : ∀ n, ((opened storage).after cipher (events.take n)).vault.held.length ≤ rankCount)
    {password : String} {links : List Link}
    (hunlocked : ((opened storage).after cipher events).vault = .unlocked password links) :
    let s := (opened storage).after cipher events
    ((s.token = none ∧ links = []) ∨
      ∃ token, s.token = some token ∧
        Payload.accept (Payload.codec.openText cipher password token) = some ⟨links⟩) ∧
    ∀ lock supply refusesWrites, lock.request = .lock →
      let locked := s.step cipher lock
      let outcome := Vault.run cipher supply locked.vault
        { locked.storage with refusesReads := false, refusesWrites } (.unlock password)
      outcome.answer = .ok (.opened true) ∧ outcome.vault = .unlocked password links ∧
        outcome.storage.stored Storage.tokenKey = s.token := by
  intro s
  have hs : Agrees cipher s := (agrees_locked storage).after hcipher howned hone hlen
  obtain ⟨hopen, -⟩ := hs password links hunlocked
  refine ⟨?_, ?_⟩
  · cases ht : s.token with
    | none =>
      rw [ht] at hopen
      exact Or.inl ⟨rfl, (Payload.mk.inj (Option.some.inj hopen)).symm⟩
    | some token =>
      rw [ht] at hopen
      exact Or.inr ⟨token, rfl, hopen⟩
  · rintro ⟨_, refusesReads, refusesWrites⟩ supply refusesWrites' rfl locked outcome
    have hreads : ({ locked.storage with refusesReads := false, refusesWrites := refusesWrites' } :
      Storage).refusesReads = false := rfl
    rw [show outcome = _ from run_unlock hreads hopen supply locked.vault]
    exact ⟨rfl, rfl, rfl⟩

/-- A cipher that puts the key in front of what it seals, so that no other key opens
it. -/
def keyedCipher : Cipher where
  deriveKey password _ := Supply.cut 32 password
  encrypt key _ plain := key.toBytes ++ plain
  decrypt? key _ bytes := if bytes.take 32 = key.toBytes then some (bytes.drop 32) else none

theorem keyedCipher_lawful : keyedCipher.Lawful where
  decrypt?_encrypt key nonce plain := by
    have hlen : key.toBytes.length = 32 := key.length_toBytes
    simp only [keyedCipher, List.take_left' hlen, List.drop_left' hlen, if_true]
  tagged key nonce plain := by
    have hlen : key.toBytes.length = 32 := key.length_toBytes
    simp only [keyedCipher, List.length_append, hlen, Crypto.Gcm.tagLength]
    omega

theorem keyedCipher_plainBytes {password : String} {t : Token} {bytes : Bytes}
    (h : Codec.plainBytes keyedCipher password t = .ok bytes) : bytes = t.sealedBytes.drop 32 := by
  unfold Codec.plainBytes Cipher.reveal at h
  split at h
  · cases h
  · split at h
    · next plain hplain =>
      obtain rfl := Except.ok.inj h
      simp only [keyedCipher] at hplain
      split at hplain
      · exact (Option.some.inj hplain).symm
      · cases hplain
    · cases h

/-- What is opened does not depend on the password. -/
theorem keyedCipher_oneReading (token : Option String) : OneReading keyedCipher token := by
  intro p q P Q hP hQ
  cases token with
  | none => exact Option.some.inj (hP.symm.trans hQ)
  | some text =>
    unfold openStored at hP hQ
    dsimp only at hP hQ
    have heq : Payload.codec.openText keyedCipher p text = Payload.codec.openText keyedCipher q text := by
      cases ht : Token.ofText text with
      | error e =>
        unfold Codec.openText
        rw [ht]
        rfl
      | ok t =>
        obtain ⟨bytes, hbytes⟩ := Payload.plainBytes_of_accept ht hP
        obtain ⟨bytes', hbytes'⟩ := Payload.plainBytes_of_accept ht hQ
        obtain rfl := keyedCipher_plainBytes hbytes
        obtain rfl := keyedCipher_plainBytes hbytes'
        unfold Codec.openText
        rw [ht]
        simp only [Bind.bind, Except.bind, hbytes, hbytes']
    rw [heq] at hP
    exact Option.some.inj (hP.symm.trans hQ)

/-- A link is added to a new vault and written; and, sealed with the cipher that tokens
are made with, one is refused by the storage. -/
theorem token_after_add :
    let supply : Supply := ⟨fun _ => "5b1e7c02-93d4-4f6a-8c1d-000000000000", 7, Supply.cut 16 [], Supply.cut 12 []⟩
    let add : VaultCall := .edit (.add ⟨"lean-lang.org", "Lean", none, none, none, true⟩)
    let events (refusesWrites : Bool) : List Event :=
      [⟨.call supply (.unlock "pw") false, false, false⟩, ⟨.call supply add false, false, refusesWrites⟩]
    let l : Link := ⟨"5b1e7c02-93d4-4f6a-8c1d-000000000000", "https://lean-lang.org", "Lean", none, "private", none,
      true, some 0, some 0, 7⟩
    let refused := (opened Storage.empty).after Cipher.standard (events true)
    (∃ token, ((opened Storage.empty).after keyedCipher (events false)).token = some token ∧
      Payload.accept (Payload.codec.openText keyedCipher "pw" token) = some ⟨[l]⟩) ∧
    (Vault.run Cipher.standard supply (refused.step Cipher.standard ⟨.lock, false, false⟩).vault
      { (refused.step Cipher.standard ⟨.lock, false, false⟩).storage with refusesReads := false, refusesWrites := false }
      (.unlock "pw")).vault = .unlocked "pw" [] := by
  intro supply add events l refused
  have howned : ∀ refusesWrites, ∀ e ∈ events refusesWrites, e.Owned := by
    intro refusesWrites e he
    rcases List.mem_cons.mp he with rfl | he
    · exact ⟨nofun, by rintro _ _ _ ⟨⟩; decide⟩
    · obtain rfl := List.mem_singleton.mp he
      exact ⟨nofun, by rintro _ _ _ ⟨⟩; decide⟩
  refine ⟨?_, ?_⟩
  · have hlen : ∀ n,
        ((opened Storage.empty).after keyedCipher ((events false).take n)).vault.held.length ≤ rankCount := by
      intro n
      rcases n with _ | _ | n
      · decide
      · decide
      · rw [List.take_of_length_le (by simp [events])]
        decide
    have hunlocked : ((opened Storage.empty).after keyedCipher (events false)).vault = .unlocked "pw" [l] := by decide
    obtain ⟨⟨-, hnil⟩ | htoken, -⟩ := unlocked_agrees_with_token keyedCipher_lawful Storage.empty (events false)
      (howned false) (fun n => keyedCipher_oneReading _) hlen hunlocked
    · cases hnil
    · exact htoken
  · have hrun : ∀ n, ((opened Storage.empty).after Cipher.standard ((events true).take n)).token = none ∧
        ((opened Storage.empty).after Cipher.standard ((events true).take n)).vault.held = [] := by
      intro n
      rcases n with _ | _ | n
      · decide
      · decide
      · rw [List.take_of_length_le (by simp [events])]
        decide
    have hone : ∀ n, OneReading Cipher.standard
        ((opened Storage.empty).after Cipher.standard ((events true).take n)).token := by
      intro n p q P Q hP hQ
      rw [(hrun n).1] at hP hQ
      exact Option.some.inj (hP.symm.trans hQ)
    have hlen : ∀ n, ((opened Storage.empty).after Cipher.standard ((events true).take n)).vault.held.length ≤
        rankCount := fun n => by rw [(hrun n).2]; exact Nat.zero_le _
    have hunlocked : refused.vault = .unlocked "pw" [] := by decide
    obtain ⟨-, hagain⟩ := unlocked_agrees_with_token Cipher.standard_lawful Storage.empty (events true) (howned true)
      hone hlen hunlocked
    exact (hagain ⟨.lock, false, false⟩ supply false rfl).2.1

end Session

end Bookmarks.Vault
