import Bookmarks.Proofs.Vault.Atomic
import Bookmarks.Proofs.Vault.NormalForm

/-! # What a session seals

A session that nobody else interferes with makes every token itself.  Each call makes at most
one, which is tried to be written at once (`storage_run`); what was sealed in it is kept here
beside it, as a `Sealing`.

The links in memory come from commands or from a token, and tokens come from links in memory
or from another token.  So if the token that was there opens to nothing but normal forms, and
the tokens that are written open to nothing but what was sealed in them, **all links that are
ever in memory, and all that are ever sealed, are in normal form**
(`normal_form_throughout`).
-/
namespace Bookmarks.Vault

/-- What is sealed in a token that a call makes, and whether the storage takes the token. -/
structure Sealing where
  password : String
  salt : Octets 16
  nonce : Octets 12
  payload : Payload
  accepted : Bool

namespace Sealing

/-- The token that is made. -/
def token (cipher : Cipher) (w : Sealing) : String :=
  Payload.codec.sealText cipher w.password w.salt w.nonce w.payload

/-- The attempt to write it. -/
def attempt (cipher : Cipher) (w : Sealing) : Attempt :=
  ⟨Storage.tokenKey, some (w.token cipher), w.accepted⟩

/-- The token opens under no password to anything but what was sealed in it. -/
def OpensOnlyToIt (cipher : Cipher) (w : Sealing) : Prop :=
  ∀ password payload, Payload.codec.openText cipher password (w.token cipher) = .ok payload → payload = w.payload

end Sealing

variable {cipher : Cipher} {supply : Supply} {vault : Vault} {storage : Storage} {call : VaultCall} {w : Sealing}

/-- What a call seals, if it is not abandoned. -/
def sealing? (cipher : Cipher) (supply : Supply) (vault : Vault) (storage : Storage) (call : VaultCall) :
    Option Sealing :=
  match start supply vault storage call with
  | .suspended _ (.sealLinks password links _) =>
    some ⟨password, supply.salt, supply.nonce, ⟨links⟩, !storage.refusesWrites⟩
  | .suspended _ (.rekey token old new) =>
    (openStored cipher old token).map fun payload =>
      ⟨new, supply.salt, supply.nonce, payload, !storage.refusesWrites⟩
  | _ => none

/-- The storage after an attempt to write a token, if one was made. -/
def withSealing (cipher : Cipher) (storage : Storage) : Option Sealing → Storage
  | some w => (storage.write Storage.tokenKey (some (w.token cipher))).2
  | none => storage

/-- **A call tries to write what it seals**, and nothing else. -/
theorem storage_run (cipher : Cipher) (supply : Supply) (vault : Vault) (storage : Storage) (call : VaultCall) :
    (run cipher supply vault storage call).storage =
      withSealing cipher storage (sealing? cipher supply vault storage call) := by
  unfold run sealing?
  have hbegins := start_begins supply vault storage call
  generalize start supply vault storage call = started at hbegins ⊢
  cases hbegins with
  | same _ _ => rfl
  | unread _ => rfl
  | fresh _ _ => rfl
  | opening password token _ =>
    dsimp only [finish]
    cases openStored cipher password (some token) <;> rfl
  | sealing _ _ =>
    dsimp only [finish]
    rw [writeToken_eq]
    rfl
  | rekeying old new =>
    dsimp only [finish]
    cases openStored cipher old (storage.stored Storage.tokenKey) with
    | none => rfl
    | some payload =>
      dsimp only
      rw [writeToken_eq]
      rfl

theorem accepted_of_sealing? (h : sealing? cipher supply vault storage call = some w) :
    w.accepted = !storage.refusesWrites := by
  unfold sealing? at h
  split at h
  · obtain rfl := Option.some.inj h
    rfl
  · obtain ⟨payload, -, rfl⟩ := Option.map_eq_some_iff.mp h
    rfl
  · cases h

/-! ## Normal forms -/

/-- What is stored opens to nothing but normal forms. -/
def OpensToNormalForms (cipher : Cipher) (token : Option String) : Prop :=
  ∀ text, token = some text → ∀ password payload,
    Payload.codec.openText cipher password text = .ok payload → NormalForm payload.links

theorem OpensToNormalForms.of_openStored {token : Option String} (h : OpensToNormalForms cipher token)
    {password : String} {payload : Payload} (hopen : openStored cipher password token = some payload) :
    NormalForm payload.links := by
  cases token with
  | none =>
    obtain rfl := Option.some.inj hopen
    exact normalForm_nil
  | some text =>
    unfold openStored Payload.accept at hopen
    dsimp only at hopen
    split at hopen
    · next opened =>
      obtain rfl := Option.some.inj hopen
      exact h text rfl password _ opened
    · -- what cannot be read counts as no links
      obtain rfl := Option.some.inj hopen
      exact normalForm_nil
    · cases hopen

/-- The id that a call draws for a new link is not that of one in memory. -/
def DrawsFresh (supply : Supply) (vault : Vault) (call : VaultCall) : Prop :=
  ∀ draft, call = .edit (.add draft) → supply.id 0 ∉ vault.held.map (·.id)

/-- What a call seals is a command's doing, or what it has opened. -/
theorem normalForm_of_sealing? (hheld : NormalForm vault.held)
    (htoken : OpensToNormalForms cipher (storage.stored Storage.tokenKey)) (hfresh : DrawsFresh supply vault call)
    (h : sealing? cipher supply vault storage call = some w) : NormalForm w.payload.links := by
  unfold sealing? at h
  have hbegins := start_begins supply vault storage call
  generalize start supply vault storage call = started at hbegins h
  cases hbegins with
  | same _ _ => cases h
  | unread _ => cases h
  | fresh _ _ => cases h
  | opening _ _ _ => cases h
  | sealing hvault hp =>
    obtain rfl := Option.some.inj h
    subst hvault
    exact VaultCommand.perform_normalForm hheld (fun draft hadd => hfresh draft (congrArg VaultCall.edit hadd)) hp
  | rekeying old new =>
    obtain ⟨payload, hopen, rfl⟩ := Option.map_eq_some_iff.mp h
    exact htoken.of_openStored hopen

/-- What is in memory after a call was there before, was opened, or has just been sealed. -/
theorem normalForm_held_run (hheld : NormalForm vault.held)
    (htoken : OpensToNormalForms cipher (storage.stored Storage.tokenKey)) (hfresh : DrawsFresh supply vault call) :
    NormalForm (run cipher supply vault storage call).vault.held := by
  have hends := run_ends cipher supply vault storage call
  generalize run cipher supply vault storage call = outcome at hends ⊢
  cases hends with
  | same _ _ => exact hheld
  | shut _ => exact normalForm_nil
  | opened hopen => exact htoken.of_openStored hopen
  | refused _ _ _ => exact hheld
  | sealed hvault hp _ =>
    subst hvault
    exact VaultCommand.perform_normalForm hheld (fun draft hadd => hfresh draft (congrArg VaultCall.edit hadd)) hp
  | rekeyed new _ _ =>
    rw [held_withPassword]
    exact hheld

theorem normalForm_held_runAbandoned (hheld : NormalForm vault.held) (supply : Supply) (storage : Storage)
    (call : VaultCall) : NormalForm (runAbandoned supply vault storage call).2.held := by
  have habandon : NormalForm vault.abandon.held := by
    unfold abandon
    split
    · exact normalForm_nil
    · exact hheld
  unfold runAbandoned
  have hbegins := start_begins supply vault storage call
  generalize start supply vault storage call = started at hbegins ⊢
  cases hbegins with
  | same _ _ => exact hheld
  | unread _ => exact normalForm_nil
  | fresh _ _ => exact normalForm_nil
  | opening _ _ _ => exact normalForm_nil
  | sealing _ _ => exact habandon
  | rekeying _ _ => exact habandon

/-- A token that was taken opens to the normal form that was sealed in it; one that was refused
changes nothing. -/
theorem opensToNormalForms_withSealing (htoken : OpensToNormalForms cipher (storage.stored Storage.tokenKey))
    {made : Option Sealing} (hmade : ∀ w ∈ made, NormalForm w.payload.links ∧
      w.accepted = !storage.refusesWrites ∧ (w.accepted = true → w.OpensOnlyToIt cipher)) :
    OpensToNormalForms cipher ((withSealing cipher storage made).stored Storage.tokenKey) := by
  cases made with
  | none => exact htoken
  | some w =>
    obtain ⟨hnormal, haccepted, honly⟩ := hmade w rfl
    unfold withSealing
    cases hw : storage.refusesWrites with
    | true =>
      rw [Storage.stored_write_of_refused hw]
      exact htoken
    | false =>
      rw [Storage.stored_write_of_accepted hw]
      rintro _ ⟨⟩ password payload hopen
      rw [honly (by rw [haccepted, hw]; rfl) password payload hopen]
      exact hnormal

/-! ## Sessions -/

namespace Session

/-- What is sealed during an event. -/
def sealing? (cipher : Cipher) (s : Session) (e : Event) : Option Sealing :=
  match e.request with
  | .call supply call false =>
    Vault.sealing? cipher supply s.vault
      { s.storage with refusesReads := e.refusesReads, refusesWrites := e.refusesWrites } call
  | _ => none

/-- The sessions over a storage that nobody else puts a token into, and in which every new link
gets a fresh id; with what was sealed in them, the latest first. -/
inductive Undisturbed (cipher : Cipher) (storage : Storage) : Session → List Sealing → Prop where
  | opened : Undisturbed cipher storage (opened storage) []
  | step {s : Session} {sealings : List Sealing} (h : Undisturbed cipher storage s sealings) {e : Event}
    (hkey : ∀ key text, e.request = .put key text → key ≠ Storage.tokenKey)
    (hfresh : ∀ supply call, e.request = .call supply call false → DrawsFresh supply s.vault call) :
    Undisturbed cipher storage (s.step cipher e) ((s.sealing? cipher e).toList ++ sealings)
  | saveFlags {s : Session} {sealings : List Sealing} (h : Undisturbed cipher storage s sealings) (flags : VaultFlags)
    (refusesWrites : Bool) : Undisturbed cipher storage (s.saveFlags flags refusesWrites) sealings

variable {s : Session} {sealings : List Sealing}

/-- What holds throughout: the links in memory, what is stored, and what was sealed are in normal
form. -/
structure Normal (cipher : Cipher) (s : Session) (sealings : List Sealing) : Prop where
  held : NormalForm s.vault.held
  token : OpensToNormalForms cipher s.token
  sealings : ∀ w ∈ sealings, NormalForm w.payload.links

/-- **What one event preserves.** -/
theorem Normal.step (h : Normal cipher s sealings) {e : Event}
    (hkey : ∀ key text, e.request = .put key text → key ≠ Storage.tokenKey)
    (hfresh : ∀ supply call, e.request = .call supply call false → DrawsFresh supply s.vault call)
    (hopens : ∀ w ∈ s.sealing? cipher e, w.accepted = true → w.OpensOnlyToIt cipher) :
    Normal cipher (s.step cipher e) ((s.sealing? cipher e).toList ++ sealings) := by
  obtain ⟨request, refusesReads, refusesWrites⟩ := e
  cases request with
  | lock => exact ⟨normalForm_nil, h.token, h.sealings⟩
  | put key text =>
    refine ⟨h.held, ?_, h.sealings⟩
    have hsame : (s.step cipher ⟨.put key text, refusesReads, refusesWrites⟩).token = s.token :=
      Storage.stored_put_of_ne (Ne.symm (hkey key text rfl)) _ _
    rw [hsame]
    exact h.token
  | call supply call abandoned =>
    cases abandoned with
    | true => exact ⟨normalForm_held_runAbandoned h.held supply _ call, h.token, h.sealings⟩
    | false =>
      let storage : Storage := { s.storage with refusesReads, refusesWrites }
      have htoken : OpensToNormalForms cipher (storage.stored Storage.tokenKey) := h.token
      have hfresh := hfresh supply call rfl
      have hsealed : ∀ w ∈ Vault.sealing? cipher supply s.vault storage call, NormalForm w.payload.links :=
        fun w hw => normalForm_of_sealing? h.held htoken hfresh hw
      refine ⟨normalForm_held_run h.held htoken hfresh, ?_, ?_⟩
      · show OpensToNormalForms cipher ((run cipher supply s.vault storage call).storage.stored Storage.tokenKey)
        rw [storage_run]
        exact opensToNormalForms_withSealing htoken fun w hw => ⟨hsealed w hw, accepted_of_sealing? hw, hopens w hw⟩
      · intro w hw
        rcases List.mem_append.mp hw with hw | hw
        · exact hsealed w (Option.mem_toList.mp hw)
        · exact h.sealings w hw

/-- Every attempt to write that an event makes is that of what was sealed. -/
theorem attempts_step (s : Session) (cipher : Cipher) (e : Event) : (s.step cipher e).storage.attempts =
    (s.sealing? cipher e).toList.map (·.attempt cipher) ++ s.storage.attempts := by
  obtain ⟨request, refusesReads, refusesWrites⟩ := e
  cases request with
  | lock => rfl
  | put key text => rfl
  | call supply call abandoned =>
    cases abandoned with
    | true => rfl
    | false =>
      show (run cipher supply s.vault _ call).storage.attempts = _
      rw [storage_run]
      unfold sealing?
      dsimp only
      cases hmade : Vault.sealing? cipher supply s.vault { s.storage with refusesReads, refusesWrites } call with
      | none => rfl
      | some w =>
        have haccepted := accepted_of_sealing? hmade
        unfold withSealing Storage.write
        cases refusesWrites <;> simp [Sealing.attempt, haccepted]

theorem storage_saveFlags (s : Session) (flags : VaultFlags) (refusesWrites : Bool) :
    ∃ text, (s.saveFlags flags refusesWrites).storage =
      (({ s.storage with refusesWrites } : Storage).write Storage.flagsKey text).2 := by
  refine ⟨some (VaultFlags.codec.compact flags), ?_⟩
  unfold saveFlags VaultFlags.save Storage.write
  cases refusesWrites <;> rfl

/-- By induction on how the session was reached. -/
theorem Undisturbed.normal {storage : Storage} (h : Undisturbed cipher storage s sealings)
    (hstored : OpensToNormalForms cipher (storage.stored Storage.tokenKey))
    (hopens : ∀ w ∈ sealings, w.accepted = true → w.OpensOnlyToIt cipher) : Normal cipher s sealings := by
  induction h with
  | opened => exact ⟨normalForm_nil, hstored, nofun⟩
  | step h hkey hfresh ih =>
    have hs := ih fun w hw => hopens w (List.mem_append_right _ hw)
    exact hs.step hkey hfresh fun w hw => hopens w (List.mem_append_left _ (Option.mem_toList.mpr hw))
  | @saveFlags s sealings h flags refusesWrites ih =>
    obtain ⟨hheld, htoken, hsealings⟩ := ih hopens
    refine ⟨hheld, ?_, hsealings⟩
    obtain ⟨text, hstorage⟩ := s.storage_saveFlags flags refusesWrites
    rw [Session.token, hstorage, Storage.stored_write_of_ne (by decide)]
    exact htoken

theorem Undisturbed.attempts {storage : Storage} (h : Undisturbed cipher storage s sealings) :
    s.storage.attempts.filter (·.key == Storage.tokenKey) =
      sealings.map (·.attempt cipher) ++ storage.attempts.filter (·.key == Storage.tokenKey) := by
  induction h with
  | opened => rfl
  | step h hkey hfresh ih =>
    have hkept : ∀ made : Option Sealing, (made.toList.map (·.attempt cipher)).filter (·.key == Storage.tokenKey) =
        made.toList.map (·.attempt cipher) := by
      intro made
      cases made <;> rfl
    rw [attempts_step, List.filter_append, ih, hkept, List.map_append, List.append_assoc]
  | @saveFlags s sealings h flags refusesWrites ih =>
    obtain ⟨text, hstorage⟩ := s.storage_saveFlags flags refusesWrites
    rw [← ih, hstorage]
    unfold Storage.write
    cases refusesWrites <;> rfl

/-- **Normal forms throughout.**  A session starts over a storage that holds no token, or one that
opens, under any password, to nothing but links in normal form.  It goes on with calls, some of
which are abandoned, while the storage refuses what it likes; nobody else puts a token there, new
links get fresh ids, and a token that was taken opens to nothing but what was sealed in it.

Then the links are in normal form whenever the vault is unlocked, and so are those that were
sealed in each of the tokens that the session has tried to write. -/
theorem normal_form_throughout {storage : Storage}
    (hstored : ∀ token, storage.stored Storage.tokenKey = some token → ∀ password payload,
      Payload.codec.openText cipher password token = .ok payload → NormalForm payload.links)
    (h : Undisturbed cipher storage s sealings)
    (hopens : ∀ w ∈ sealings, w.accepted = true → ∀ password payload,
      Payload.codec.openText cipher password (w.token cipher) = .ok payload → payload = w.payload) :
    (∀ password links, s.vault = .unlocked password links → NormalForm links) ∧
    (∀ w ∈ sealings, NormalForm w.payload.links) ∧
    s.storage.attempts.filter (·.key == Storage.tokenKey) =
      sealings.map (fun w => ⟨Storage.tokenKey,
        some (Payload.codec.sealText cipher w.password w.salt w.nonce w.payload), w.accepted⟩) ++
      storage.attempts.filter (·.key == Storage.tokenKey) := by
  have hs : Normal cipher s sealings := h.normal hstored hopens
  refine ⟨fun password links hv => ?_, hs.sealings, h.attempts⟩
  have hheld := hs.held
  rw [hv] at hheld
  exact hheld

/-- With the key in front of what is sealed, only what was sealed is opened. -/
theorem keyedCipher_opensOnlyToIt {w : Sealing} (h : ∀ l ∈ w.payload.links, l.Storable) :
    w.OpensOnlyToIt keyedCipher := by
  intro password payload hopen
  refine keyedCipher_oneReading (some (w.token keyedCipher)) password w.password payload w.payload ?_ ?_
  · rw [openStored, hopen]
    rfl
  · exact openStored_sealText keyedCipher_lawful w.password w.salt w.nonce h

/-- A password is changed before there is anything to seal; then two links are added, the first
of them pinned, and the second while the storage refuses to be written. -/
theorem normal_form_after_new_password :
    let supply (id : String) : Supply := ⟨fun _ => id, 7, Supply.cut 16 [], Supply.cut 12 []⟩
    let unlock : Event := ⟨.call (supply "") (.unlock "pw") false, false, false⟩
    let change : Event := ⟨.call (supply "") (.changePassword "pw" "new") false, false, false⟩
    let add (id : String) (pinned refusesWrites : Bool) : Event :=
      ⟨.call (supply id) (.edit (.add ⟨"lean-lang.org", " Lean ", none, none, none, pinned⟩)) false,
        false, refusesWrites⟩
    let l (id : String) (pinned : Bool) (rank : Option Int) : Link :=
      ⟨id, "https://lean-lang.org", "Lean", none, "private", none, pinned, some 0, rank, 7⟩
    let s := (opened Storage.empty).after keyedCipher [unlock, change, add "a" true false, add "b" false true]
    s.vault = .unlocked "new" [l "a" true (some 0)] ∧ NormalForm [l "a" true (some 0)] ∧
    ∃ sealings, Undisturbed keyedCipher Storage.empty s sealings ∧
      sealings.map (·.payload.links) = [[l "a" true (some 0), l "b" false none], [l "a" true (some 0)], []] ∧
      ∀ w ∈ sealings, NormalForm w.payload.links := by
  intro supply unlock change add l s
  obtain ⟨sealings, h, hsealings⟩ : ∃ sealings, Undisturbed keyedCipher Storage.empty s sealings ∧
      sealings.map (·.payload.links) = [[l "a" true (some 0), l "b" false none], [l "a" true (some 0)], []] := by
    have hopened : Undisturbed keyedCipher Storage.empty (opened Storage.empty) [] := .opened
    have hunlocked := hopened.step (e := unlock) nofun (by rintro _ _ ⟨⟩ _ ⟨⟩)
    have hchanged := hunlocked.step (e := change) nofun (by rintro _ _ ⟨⟩ _ ⟨⟩)
    have hadded := hchanged.step (e := add "a" true false) nofun (by rintro _ _ ⟨⟩ _ ⟨⟩; decide)
    have hrefused := hadded.step (e := add "b" false true) nofun (by rintro _ _ ⟨⟩ _ ⟨⟩; decide)
    exact ⟨_, hrefused, by decide⟩
  have hstorable : ∀ links ∈ sealings.map (·.payload.links), ∀ l ∈ links, l.Storable := by
    rw [hsealings]
    decide
  have hopens : ∀ w ∈ sealings, w.OpensOnlyToIt keyedCipher := fun w hw =>
    keyedCipher_opensOnlyToIt (hstorable _ (List.mem_map_of_mem hw))
  have hvault : s.vault = .unlocked "new" [l "a" true (some 0)] := by decide
  obtain ⟨hheld, hnormal, -⟩ := normal_form_throughout (by rintro _ ⟨⟩) h fun w hw _ => hopens w hw
  exact ⟨hvault, hheld "new" _ hvault, sealings, h, hsealings, hnormal⟩

end Session

end Bookmarks.Vault
