import Bookmarks.Proofs.Vault.Lifecycle

/-! # All or nothing

A call that changes the private links works on a copy: it makes the next list, seals it,
and has the token written before anything of it can be seen.  **Wherever that goes wrong,
or is given up, there is no trace of it**, neither in the vault nor in what is stored; and
a call that succeeds writes one token, or, where a link is put back to its place, none.

A token that was written opens to the links it was made for.  That takes links whose ranks
fit into the token, so the sessions here are those whose ranks never run out (`InRange`).
-/
namespace Bookmarks.Vault

variable {cipher : Cipher} {supply : Supply} {vault next : Vault} {storage : Storage} {token : String}
  {reply answer : VaultReply} {e : VaultError}

/-! ## Writing a token -/

/-- One text was put under the key of the token, and nothing else was tried or changed. -/
structure WritesToken (before after : Storage) (token : String) : Prop where
  attempts : after.attempts = ⟨Storage.tokenKey, some token, true⟩ :: before.attempts
  token : after.stored Storage.tokenKey = some token
  others : ∀ key, key ≠ Storage.tokenKey → after.stored key = before.stored key

theorem writesToken_write (h : storage.refusesWrites = false) (token : String) :
    WritesToken storage (storage.write Storage.tokenKey (some token)).2 token where
  attempts := by
    unfold Storage.write
    rw [h]
    rfl
  token := Storage.stored_write_of_accepted h
  others key hkey := by
    unfold Storage.write
    rw [h]
    exact Storage.stored_put_of_ne hkey storage (some token)

theorem writeToken_of_ok (h : (writeToken vault storage token next reply).answer = .ok answer) :
    answer = reply ∧ (writeToken vault storage token next reply).vault = next ∧
      WritesToken storage (writeToken vault storage token next reply).storage token := by
  rw [writeToken_eq] at h ⊢
  cases hw : storage.refusesWrites with
  | true =>
    rw [hw] at h
    cases h
  | false =>
    rw [hw] at h
    exact ⟨(Except.ok.inj h).symm, rfl, writesToken_write hw token⟩

/-- Links were sealed under a password, and written; they are what the password opens. -/
structure Reseals (cipher : Cipher) (supply : Supply) (before after : Storage) (password : String)
    (links : List Link) : Prop where
  writes : WritesToken before after (Payload.codec.sealText cipher password supply.salt supply.nonce ⟨links⟩)
  opens : Payload.codec.openText cipher password
    (Payload.codec.sealText cipher password supply.salt supply.nonce ⟨links⟩) = .ok ⟨links⟩

theorem WritesToken.reseals (hcipher : cipher.Lawful) {after : Storage} {password : String} {links : List Link}
    (hlinks : ∀ l ∈ links, l.Storable)
    (h : WritesToken storage after (Payload.codec.sealText cipher password supply.salt supply.nonce ⟨links⟩)) :
    Reseals cipher supply storage after password links where
  writes := h
  opens :=
    have hkeeps : Payload.codec.Keeps ⟨links⟩ := Payload.codec_keeps hlinks
    hkeeps.openText_sealText hcipher password supply.salt supply.nonce

/-! ## The two kinds of calls -/

/-- A command on the private links, with the vault unlocked. -/
theorem run_edit_eq (cipher : Cipher) (supply : Supply) (password : String) (links : List Link) (storage : Storage)
    (command : VaultCommand) :
    run cipher supply (.unlocked password links) storage (.edit command) =
      match command.perform supply links with
      | .error e => ⟨.error (.ofLink e), .unlocked password links, storage⟩
      | .ok (next, reply) =>
        if command.isReorder ∧ next = links then ⟨.ok reply, .unlocked password links, storage⟩
        else writeToken (.unlocked password links) storage
          (Payload.codec.sealText cipher password supply.salt supply.nonce ⟨next⟩) (.unlocked password next) reply := by
  simp only [run, start, startEdit]
  cases command.perform supply links with
  | error e => rfl
  | ok done =>
    obtain ⟨next, reply⟩ := done
    by_cases hplace : command.isReorder ∧ next = links
    · simp only [if_pos hplace]
    · simp only [if_neg hplace, finish]

/-- A change of password, with the vault in any state. -/
theorem run_changePassword_eq (cipher : Cipher) (supply : Supply) (vault : Vault) (storage : Storage)
    (old new : String) :
    run cipher supply vault storage (.changePassword old new) =
      if storage.refusesReads then ⟨.error (.ofStorage .readRefused), vault, storage⟩
      else match openStored cipher old (storage.stored Storage.tokenKey) with
        | none => ⟨.error .unlockFailed, vault, storage⟩
        | some payload =>
          writeToken vault storage (Payload.codec.sealText cipher new supply.salt supply.nonce payload)
            (vault.withPassword new) .done := by
  unfold run start Storage.read
  cases storage.refusesReads with
  | true => rfl
  | false => rfl

/-- A call whose links go into a token: every call but an unlocking. -/
def Seals (call : VaultCall) : Prop := ∀ password, call ≠ .unlock password

/-- **A call that fails leaves no trace.** -/
theorem run_of_error {call : VaultCall} (h : (run cipher supply vault storage call).answer = .error e) :
    (run cipher supply vault storage call).vault = vault ∧
      ∀ key, (run cipher supply vault storage call).storage.stored key = storage.stored key := by
  have hends := run_ends cipher supply vault storage call
  generalize run cipher supply vault storage call = outcome at hends h ⊢
  cases hends with
  | same _ _ => exact ⟨rfl, fun _ => rfl⟩
  | shut _ => cases h
  | opened _ => cases h
  | refused _ _ hw => exact ⟨rfl, Storage.stored_write_of_refused hw⟩
  | sealed _ _ _ => cases h
  | rekeyed _ _ _ => cases h

/-- **A call that is given up leaves no trace**, and neither does one that would have been
but was answered before. -/
theorem runAbandoned_eq {call : VaultCall} (hcall : Seals call) (hvault : vault.Settled) (supply : Supply)
    (storage : Storage) : (runAbandoned supply vault storage call).2 = vault := by
  have habandon : vault.abandon = vault := by
    obtain rfl | ⟨password, links, rfl⟩ := hvault.locked_or_unlocked
    · rfl
    · rfl
  unfold runAbandoned
  have hbegins := start_begins supply vault storage call
  generalize start supply vault storage call = started at hbegins ⊢
  cases hbegins with
  | same _ _ => rfl
  | unread password => exact absurd rfl (hcall password)
  | fresh password _ => exact absurd rfl (hcall password)
  | opening password _ _ => exact absurd rfl (hcall password)
  | sealing _ _ => exact habandon
  | rekeying _ _ => exact habandon

/-- What a call that succeeds has done: it wrote a token for some links under some
password, or it had nothing to do. -/
inductive Done (cipher : Cipher) (supply : Supply) (vault : Vault) (storage : Storage) :
    VaultCall → VaultReply → Vault → Storage → Prop where
  /-- A link was put back to its place, and the links are as they were. -/
  | inPlace {command : VaultCommand} {reply : VaultReply} (hunlocked : vault.isUnlocked = true)
    (hreorder : command.isReorder = true) (h : command.perform supply vault.held = .ok (vault.held, reply)) :
    Done cipher supply vault storage (.edit command) reply vault storage
  /-- The next links were sealed under the password of the session. -/
  | edited {command : VaultCommand} {reply : VaultReply} {password : String} {links : List Link} {after : Storage}
    (hpassword : vault.password? = some password) (h : command.perform supply vault.held = .ok (links, reply))
    (hreseals : Reseals cipher supply storage after password links) :
    Done cipher supply vault storage (.edit command) reply (.unlocked password links) after
  /-- The links of the token that was stored were sealed under the new password, which is
  that of the session from then on. -/
  | rekeyed {old new : String} {links : List Link} {after : Storage}
    (h : openStored cipher old (storage.stored Storage.tokenKey) = some ⟨links⟩)
    (hreseals : Reseals cipher supply storage after new links) :
    Done cipher supply vault storage (.changePassword old new) .done (vault.withPassword new) after

/-- **A call that succeeds is done completely.** -/
theorem run_of_ok (hcipher : cipher.Lawful) (hvault : ∀ l ∈ vault.held, l.Storable)
    (hlen : vault.held.length ≤ rankCount) (hnow : IsRank supply.now) {call : VaultCall} (hcall : Seals call)
    (h : (run cipher supply vault storage call).answer = .ok reply) :
    Done cipher supply vault storage call reply (run cipher supply vault storage call).vault
      (run cipher supply vault storage call).storage := by
  cases call with
  | unlock password => exact absurd rfl (hcall password)
  | changePassword old new =>
    rw [run_changePassword_eq] at h ⊢
    cases hreads : storage.refusesReads with
    | true =>
      rw [hreads] at h
      cases h
    | false =>
      cases hopen : openStored cipher old (storage.stored Storage.tokenKey) with
      | none =>
        rw [hreads, hopen] at h
        cases h
      | some payload =>
        rw [hreads, hopen] at h
        obtain ⟨rfl, hnext, hwrites⟩ := writeToken_of_ok h
        simp only [Bool.false_eq_true, if_false, hnext]
        exact .rekeyed hopen (hwrites.reseals hcipher (storable_of_openStored hopen))
  | edit command =>
    cases vault with
    | locked => cases h
    | unlocking => cases h
    | unlocked password links =>
      rw [run_edit_eq] at h ⊢
      cases hp : command.perform supply links with
      | error e =>
        rw [hp] at h
        cases h
      | ok made =>
        obtain ⟨next, reply'⟩ := made
        simp only [hp] at h ⊢
        by_cases hplace : command.isReorder ∧ next = links
        · rw [if_pos hplace] at h ⊢
          obtain ⟨hreorder, rfl⟩ := hplace
          obtain rfl := Except.ok.inj h
          exact .inPlace rfl hreorder hp
        · rw [if_neg hplace] at h ⊢
          obtain ⟨rfl, hnext, hwrites⟩ := writeToken_of_ok h
          rw [hnext]
          exact .edited rfl hp (hwrites.reseals hcipher (VaultCommand.perform_storable hvault hnow hlen hp))

/-! ## Sessions whose ranks do not run out -/

/-- What holds of the links of an unlocked vault holds of those of a vault under a new
password. -/
theorem held_withPassword (vault : Vault) (password : String) : (vault.withPassword password).held = vault.held := by
  cases vault <;> rfl

/-- What a call holds in memory can be stored: it was there before, it was read, or it was
made of links that could be. -/
theorem held_run_storable (hvault : ∀ l ∈ vault.held, l.Storable) (hlen : vault.held.length ≤ rankCount)
    (hnow : IsRank supply.now) (call : VaultCall) :
    ∀ l ∈ (run cipher supply vault storage call).vault.held, l.Storable := by
  have hends := run_ends cipher supply vault storage call
  generalize run cipher supply vault storage call = outcome at hends ⊢
  cases hends with
  | same _ _ => exact hvault
  | shut _ => exact List.forall_mem_nil _
  | opened hopen => exact storable_of_openStored hopen
  | refused _ _ _ => exact hvault
  | sealed hv hp _ =>
    rw [hv] at hvault hlen
    exact VaultCommand.perform_storable hvault hnow hlen hp
  | rekeyed new _ _ =>
    rw [held_withPassword]
    exact hvault

theorem held_runAbandoned_storable (hvault : ∀ l ∈ vault.held, l.Storable) (call : VaultCall) :
    ∀ l ∈ (runAbandoned supply vault storage call).2.held, l.Storable := by
  have habandon : ∀ l ∈ vault.abandon.held, l.Storable := by
    unfold abandon
    split
    · exact List.forall_mem_nil _
    · exact hvault
  unfold runAbandoned
  have hbegins := start_begins supply vault storage call
  generalize start supply vault storage call = started at hbegins ⊢
  cases hbegins with
  | same _ _ => exact hvault
  | unread _ => exact List.forall_mem_nil _
  | fresh _ _ => exact List.forall_mem_nil _
  | opening _ _ _ => exact List.forall_mem_nil _
  | sealing _ _ => exact habandon
  | rekeying _ _ => exact habandon

/-- The time of a call is a number of sixty-four bits. -/
def Event.Timely (e : Event) : Prop :=
  ∀ supply call abandoned, e.request = .call supply call abandoned → IsRank supply.now

namespace Session

/-- The reachable sessions that no call has come to at a time beyond sixty-four bits, and
in which there never were more links than ranks. -/
inductive InRange (cipher : Cipher) : Session → Prop where
  | opened (storage : Storage) : InRange cipher (opened storage)
  | step {s : Session} (h : InRange cipher s) (hlen : s.vault.held.length ≤ rankCount) {e : Event}
    (he : e.Timely) : InRange cipher (s.step cipher e)
  | saveFlags {s : Session} (h : InRange cipher s) (flags : VaultFlags) (refusesWrites : Bool) :
    InRange cipher (s.saveFlags flags refusesWrites)

variable {s : Session}

theorem InRange.reachable (h : InRange cipher s) : Reachable cipher s := by
  induction h with
  | opened storage => exact .opened storage
  | step _ _ _ ih => exact ih.step _
  | saveFlags _ flags refusesWrites ih => exact ih.saveFlags flags refusesWrites

/-- **What one event preserves.** -/
theorem held_step_storable (hs : ∀ l ∈ s.vault.held, l.Storable) (hlen : s.vault.held.length ≤ rankCount) {e : Event}
    (he : e.Timely) : ∀ l ∈ (s.step cipher e).vault.held, l.Storable := by
  obtain ⟨request, refusesReads, refusesWrites⟩ := e
  cases request with
  | call supply call abandoned =>
    cases abandoned with
    | true => exact held_runAbandoned_storable hs call
    | false => exact held_run_storable hs hlen (he supply call false rfl) call
  | lock => exact List.forall_mem_nil _
  | put _ _ => exact hs

/-- By induction on how the session was reached. -/
theorem InRange.storable (h : InRange cipher s) : ∀ l ∈ s.vault.held, l.Storable := by
  induction h with
  | opened storage => exact List.forall_mem_nil _
  | step _ hlen he ih => exact held_step_storable ih hlen he
  | saveFlags _ _ _ ih => exact ih

/-! ## All or nothing -/

/-- **A call to change the private links does everything or nothing.**  From any reachable
session, whatever the storage refuses: if the call fails, or is given up where it waits for
the key, then the vault, with its password and its links, and every stored text are as they
were.

If it succeeds (`Done`), then it was to put a link back to its place, and not even that was
written; or it wrote exactly one text, under the key of the token, and the password that is
in force afterwards opens it: to the links that are in memory then or, for a change of
password, to those of the token that was stored. -/
theorem everything_or_nothing (hcipher : cipher.Lawful) (h : InRange cipher s)
    (hlen : s.vault.held.length ≤ rankCount) {supply : Supply} (hnow : IsRank supply.now) {call : VaultCall}
    (hcall : Seals call) (refusesReads refusesWrites : Bool) :
    let storage : Storage := { s.storage with refusesReads, refusesWrites }
    let outcome := run cipher supply s.vault storage call
    (∀ e, outcome.answer = .error e →
      outcome.vault = s.vault ∧ ∀ key, outcome.storage.stored key = s.storage.stored key) ∧
    s.step cipher ⟨.call supply call true, refusesReads, refusesWrites⟩ = ⟨s.vault, storage⟩ ∧
    ∀ reply, outcome.answer = .ok reply →
      Done cipher supply s.vault storage call reply outcome.vault outcome.storage := by
  intro storage outcome
  refine ⟨fun e he => run_of_error he, ?_, fun reply hreply => ?_⟩
  · have hvault := runAbandoned_eq hcall h.reachable.settled supply storage
    show Session.mk (runAbandoned supply s.vault storage call).2 storage = ⟨s.vault, storage⟩
    rw [hvault]
  · exact run_of_ok hcipher h.storable hlen hnow hcall hreply

/-- A link is added and its token refused: nothing is left of it.  It is added again and
given up: nothing again.  Added once more, it is in the token that is written, which opens
under the password of the session. -/
theorem added_once_or_not_at_all :
    let supply : Supply := ⟨fun _ => "5b1e7c02-93d4-4f6a-8c1d-000000000000", 7, Supply.cut 16 [], Supply.cut 12 []⟩
    let add : VaultCall := .edit (.add ⟨"lean-lang.org", "Lean", none, none, none, true⟩)
    let l : Link := ⟨"5b1e7c02-93d4-4f6a-8c1d-000000000000", "https://lean-lang.org", "Lean", none, "private", none,
      true, some 0, some 0, 7⟩
    let s := (opened Storage.empty).step keyedCipher ⟨.call supply (.unlock "pw") false, false, false⟩
    let refused := run keyedCipher supply s.vault { s.storage with refusesWrites := true } add
    let accepted := run keyedCipher supply s.vault s.storage add
    (refused.vault = .unlocked "pw" [] ∧ refused.storage.stored Storage.tokenKey = none) ∧
    s.step keyedCipher ⟨.call supply add true, false, false⟩ = s ∧
    accepted.vault = .unlocked "pw" [l] ∧ Reseals keyedCipher supply s.storage accepted.storage "pw" [l] := by
  intro supply add l s refused accepted
  have hrange : InRange keyedCipher s :=
    .step (.opened Storage.empty) (by decide) (by rintro _ _ _ ⟨⟩; decide)
  have hcall : Seals add := nofun
  have hlen : s.vault.held.length ≤ rankCount := by decide
  obtain ⟨hrefused, -, -⟩ :=
    everything_or_nothing keyedCipher_lawful hrange hlen (by decide : IsRank supply.now) hcall false true
  obtain ⟨-, habandoned, hdone⟩ :=
    everything_or_nothing keyedCipher_lawful hrange hlen (by decide : IsRank supply.now) hcall false false
  obtain ⟨hvault, hstored⟩ := hrefused (.ofStorage .writeRefused) (by decide)
  refine ⟨⟨hvault, hstored Storage.tokenKey⟩, habandoned, by decide, ?_⟩
  have haccepted := hdone (.created "5b1e7c02-93d4-4f6a-8c1d-000000000000") (by decide)
  change Done keyedCipher supply s.vault s.storage (.edit (.add ⟨"lean-lang.org", "Lean", none, none, none, true⟩)) _
    accepted.vault accepted.storage at haccepted
  generalize accepted.vault = next, accepted.storage = after at haccepted ⊢
  cases haccepted with
  | inPlace _ hreorder _ => cases hreorder
  | @edited _ _ password links _ hpassword hp hreseals =>
    obtain rfl : "pw" = password := Option.some.inj hpassword
    have hperform : VaultCommand.perform supply s.vault.held (.add ⟨"lean-lang.org", "Lean", none, none, none, true⟩) =
      .ok ([l], .created "5b1e7c02-93d4-4f6a-8c1d-000000000000") := by decide
    obtain rfl : [l] = links := congrArg Prod.fst (Except.ok.inj (hperform.symm.trans hp))
    exact hreseals

end Session

end Bookmarks.Vault
