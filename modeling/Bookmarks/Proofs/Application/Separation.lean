import Bookmarks.Proofs.Application.Access
import Bookmarks.Proofs.Call.Areas
import Bookmarks.Proofs.Store.Session
import Bookmarks.Proofs.Vault.Session

/-! # The areas of the application

The collection, the vault and the settings are parts of one application, and the first
two share a storage.  **A call about one of them leaves the others as they are**, in
memory and where they are kept, and a call that only tells something, or whose request
is turned down, leaves everything as it is.

So nothing that is done with the vault shows outside of it.  Two applications that differ
in their vaults alone (`Alike`) answer all other calls the same and stay alike, and a
call to the vault takes an application to one that is alike; hence **the calls to the
vault can be struck out of a run** and the others are answered as before
(`areas_kept_apart`).
-/
namespace Bookmarks

/-! ## What the store and the vault read and write -/

/-- What a command comes to depends on the text under the key of the collection, and on
whether the storage takes another. -/
theorem Store.run_congr {a b : Storage} (hw : a.refusesWrites = b.refusesWrites)
    (hs : a.stored Storage.dataKey = b.stored Storage.dataKey) (s : Store) (supply : Supply) (command : Command) :
    (s.run supply a command).answer = (s.run supply b command).answer ∧
    (s.run supply a command).store = (s.run supply b command).store ∧
    (s.run supply a command).storage.stored Storage.dataKey = (s.run supply b command).storage.stored Storage.dataKey := by
  cases hp : s.collection.perform supply command with
  | error e =>
    rw [run_of_rejected hp, run_of_rejected hp]
    exact ⟨rfl, rfl, hs⟩
  | ok effect =>
    obtain ⟨_ | next, reply⟩ := effect
    · rw [run_of_no_change hp, run_of_no_change hp]
      exact ⟨rfl, rfl, hs⟩
    · rw [run_of_change hp, run_of_change hp, hw]
      exact ⟨rfl, rfl, Storage.stored_write_congr hw hs⟩

theorem Store.stored_run_of_ne {key : String} (h : key ≠ Storage.dataKey) (s : Store) (supply : Supply)
    (storage : Storage) (command : Command) :
    (s.run supply storage command).storage.stored key = storage.stored key := by
  rcases s.run_eq supply storage command with ⟨-, heq⟩ | ⟨next, reply, -, heq⟩
  · rw [heq]
  · rw [heq]
    exact Storage.stored_write_of_ne h

theorem Vault.stored_run_of_ne {key : String} (h : key ≠ Storage.tokenKey) (cipher : Cipher) (supply : Supply)
    (vault : Vault) (storage : Storage) (call : VaultCall) :
    (vault.run cipher supply storage call).storage.stored key = storage.stored key := by
  have hends := run_ends cipher supply vault storage call
  generalize vault.run cipher supply storage call = outcome at hends ⊢
  cases hends with
  | same | shut | opened => rfl
  | refused | sealed | rekeyed => exact Storage.stored_write_of_ne h

theorem VaultFlags.stored_save_of_ne {key : String} (h : key ≠ Storage.flagsKey) (storage : Storage) (flags : VaultFlags) :
    (save storage flags).2.stored key = storage.stored key := by
  have hsave : (save storage flags).2 = (storage.write Storage.flagsKey (some (codec.compact flags))).2 := by
    unfold save
    split <;> next heq => rw [heq]
  rw [hsave]
  exact Storage.stored_write_of_ne h

/-- The error is about the request: there is no such method, a parameter is missing or
malformed, the settings take no such key or value, or the vault is switched off. -/
def CallError.IsRejection : CallError → Prop
  | .missing _ | .invalidParams _ | .invalidField _ _ | .emptyNewPassword | .unknownMethod _ | .vaultDisabled => True
  | .settings (.invalidKey _) | .settings (.invalidValue _) => True
  | .store _ | .vault _ | .settings (.io _) | .settings (.serialization _) => False

theorem Place.write_error {place : Place} {text : String} {e : SettingsError} (h : (place.write text).1 = .error e) :
    ∃ reason, e = .io reason := by
  cases place <;> cases h <;> exact ⟨_, rfl⟩

namespace Application

variable {cipher : Cipher} {supply : Supply} {app : Application} {call : Call}

/-! ## A call about one area -/

/-- The collection is the same afterwards, in memory and in the storage. -/
structure KeepsCollection (before after : Application) : Prop where
  store : after.store = before.store
  snapshot : after.storage.stored Storage.dataKey = before.storage.stored Storage.dataKey

/-- The session of the vault is the same afterwards, and so are its token and its flags. -/
structure KeepsVault (before after : Application) : Prop where
  vault : after.vault = before.vault
  token : after.storage.stored Storage.tokenKey = before.storage.stored Storage.tokenKey
  flags : after.storage.stored Storage.flagsKey = before.storage.stored Storage.flagsKey

/-- The settings are the same afterwards, in memory and in their file. -/
structure KeepsSettings (before after : Application) : Prop where
  settingsFile : after.settingsFile = before.settingsFile
  place : after.place = before.place

theorem perform_change (command : Command) : app.perform cipher supply (.change command) =
    (((app.run supply command).1.map replyJson).mapError .store, (app.run supply command).2) := by
  simp only [perform]
  split <;> next heq => rw [heq]; rfl

theorem perform_setSetting (key : String) (value : Json) : app.perform cipher supply (.setSetting key value) =
    (((app.set key value).1.map fun _ => okJson).mapError .settings, (app.set key value).2) := by
  simp only [perform]
  split <;> next heq => rw [heq]; rfl

theorem perform_callVault (h : app.vaultEnabled = true) (call : VaultCall) : app.perform cipher supply (.callVault call) =
    (((app.callVault cipher supply call).1.map vaultReplyJson).mapError .vault, (app.callVault cipher supply call).2) := by
  simp only [perform, h, if_true]
  split <;> next heq => rw [heq]; rfl

theorem perform_callVault_of_disabled (h : app.vaultEnabled = false) (call : VaultCall) :
    app.perform cipher supply (.callVault call) = (.error .vaultDisabled, app) := by
  simp only [perform, h, Bool.false_eq_true, if_false]

theorem perform_setFlags (flags : VaultFlags) : app.perform cipher supply (.setFlags flags) =
    (((VaultFlags.save app.storage flags).1.map fun _ => okJson).mapError .vault,
      { app with storage := (VaultFlags.save app.storage flags).2 }) := by
  simp only [perform]
  split <;> next heq => rw [heq]; rfl

/-- A call that only tells something changes nothing. -/
theorem perform_of_tells (cipher : Cipher) (supply : Supply) (app : Application) (h : call.Tells) :
    (app.perform cipher supply call).2 = app := by
  cases call with
  | listLinks categoryId => cases categoryId <;> rfl
  | vaultLinks => simp only [perform]; split <;> rfl
  | getFlags => simp only [perform]; split <;> rfl
  | ping | listPinned | listCategories | exportData | getSettings | vaultStatus => rfl
  | change | setSetting | callVault | lockVault | setFlags => exact h.elim

/-- A call about the vault keeps the collection and the settings. -/
theorem perform_of_vault (h : call.area = .vault) :
    app.KeepsCollection (app.perform cipher supply call).2 ∧ app.KeepsSettings (app.perform cipher supply call).2 := by
  have hsame : app.KeepsCollection app ∧ app.KeepsSettings app := ⟨⟨rfl, rfl⟩, ⟨rfl, rfl⟩⟩
  by_cases htells : call.Tells
  · rw [perform_of_tells cipher supply app htells]
    exact hsame
  cases call with
  | callVault call =>
    cases hon : app.vaultEnabled with
    | true =>
      rw [perform_callVault hon]
      exact ⟨⟨rfl, Vault.stored_run_of_ne (by decide) cipher supply app.vault app.storage call⟩, ⟨rfl, rfl⟩⟩
    | false =>
      rw [perform_callVault_of_disabled hon]
      exact hsame
  | lockVault => exact ⟨⟨rfl, rfl⟩, ⟨rfl, rfl⟩⟩
  | setFlags flags =>
    rw [perform_setFlags]
    exact ⟨⟨rfl, VaultFlags.stored_save_of_ne (by decide) app.storage flags⟩, ⟨rfl, rfl⟩⟩
  | change | setSetting => cases h
  | _ => exact absurd trivial htells

/-- A call about the collection keeps the vault and the settings. -/
theorem perform_of_collection (h : call.area = .collection) :
    app.KeepsVault (app.perform cipher supply call).2 ∧ app.KeepsSettings (app.perform cipher supply call).2 := by
  by_cases htells : call.Tells
  · rw [perform_of_tells cipher supply app htells]
    exact ⟨⟨rfl, rfl, rfl⟩, ⟨rfl, rfl⟩⟩
  cases call with
  | change command =>
    rw [perform_change]
    exact ⟨⟨rfl, Store.stored_run_of_ne (by decide) app.store supply app.storage command,
      Store.stored_run_of_ne (by decide) app.store supply app.storage command⟩, ⟨rfl, rfl⟩⟩
  | setSetting | callVault | lockVault | setFlags => cases h
  | _ => exact absurd trivial htells

/-! ## Requests -/

variable {method : String} {params : Json}

/-- A request is turned down, or comes to a call of the kind that it asks for. -/
theorem answer_of_asks (cipher : Cipher) (supply : Supply) (app : Application) {P : Call → Prop}
    (hasks : Call.Asks P (Call.ofRequest method params)) :
    (∃ e, app.answer cipher supply method params = (.error e, app)) ∨
      ∃ call, P call ∧ app.answer cipher supply method params = app.perform cipher supply call := by
  unfold answer
  cases hcall : Call.ofRequest method params with
  | ok call => exact .inr ⟨call, hasks call hcall, rfl⟩
  | error e => exact .inl ⟨e, rfl⟩

theorem answer_of_vault (cipher : Cipher) (supply : Supply) (app : Application) (h : IsUnder "vault." method)
    (params : Json) :
    app.KeepsCollection (app.answer cipher supply method params).2 ∧
      app.KeepsSettings (app.answer cipher supply method params).2 := by
  rcases answer_of_asks cipher supply app (Call.ofRequest_area method params) with ⟨e, heq⟩ | ⟨call, harea, heq⟩
  · rw [heq]
    exact ⟨⟨rfl, rfl⟩, ⟨rfl, rfl⟩⟩
  · rw [heq]
    exact perform_of_vault (harea.trans (Area.ofMethod_of_vault h))

theorem answer_of_collection (cipher : Cipher) (supply : Supply) (app : Application) (h : Area.IsOfCollection method)
    (params : Json) :
    app.KeepsVault (app.answer cipher supply method params).2 ∧
      app.KeepsSettings (app.answer cipher supply method params).2 := by
  rcases answer_of_asks cipher supply app (Call.ofRequest_area method params) with ⟨e, heq⟩ | ⟨call, harea, heq⟩
  · rw [heq]
    exact ⟨⟨rfl, rfl, rfl⟩, ⟨rfl, rfl⟩⟩
  · rw [heq]
    exact perform_of_collection (harea.trans (Area.ofMethod_of_collection h))

theorem answer_of_telling (cipher : Cipher) (supply : Supply) (app : Application) (h : method ∈ Call.tellingMethods)
    (params : Json) : (app.answer cipher supply method params).2 = app := by
  rcases answer_of_asks cipher supply app (Call.ofRequest_tells h params) with ⟨e, heq⟩ | ⟨call, htells, heq⟩
  · rw [heq]
  · rw [heq, perform_of_tells cipher supply app htells]

theorem answer_of_gated (cipher : Cipher) (supply : Supply) (hoff : app.vaultEnabled = false)
    (h : method ∈ Call.gatedMethods) (params : Json) :
    ∃ e, app.answer cipher supply method params = (.error e, app) := by
  rcases answer_of_asks cipher supply app (Call.ofRequest_gated h params) with hturned | ⟨_, ⟨call, rfl⟩, heq⟩
  · exact hturned
  · exact ⟨.vaultDisabled, heq.trans (perform_callVault_of_disabled hoff call)⟩

theorem answer_of_unknown (cipher : Cipher) (supply : Supply) (app : Application) (h : method ∉ Call.methods)
    (params : Json) : app.answer cipher supply method params = (.error (.unknownMethod method), app) := by
  rw [answer, Call.ofRequest_unknown h]

/-! ## Errors about the request -/

theorem set_of_rejected {key : String} {value : Json} {e : SettingsError} (h : (app.set key value).1 = .error e)
    (he : ∀ reason, e ≠ .io reason) : (app.set key value).2 = app := by
  cases hedit : SettingsFile.edited app.settingsFile.settings key value with
  | error cause => rw [set_of_refused hedit]
  | ok settings =>
    -- The settings are in memory by then, so the error is one of writing them.
    simp only [set, SettingsFile.set, hedit, SettingsFile.save] at h
    cases hw : (app.place.write (Settings.codec.pretty settings)).1 with
    | ok u => rw [hw] at h; cases h
    | error cause =>
      rw [hw] at h
      obtain rfl : cause = e := Except.error.inj h
      obtain ⟨reason, rfl⟩ := Place.write_error hw
      exact absurd rfl (he reason)

theorem map_mapError_eq_error {ε ε' α β : Type} {r : Except ε α} {f : α → β} {g : ε → ε'} {e : ε'}
    (h : (r.map f).mapError g = .error e) : ∃ cause, r = .error cause ∧ e = g cause := by
  cases r with
  | ok a => cases h
  | error cause => exact ⟨cause, rfl, (Except.error.inj h).symm⟩

/-- A call that fails because of the request changes nothing. -/
theorem perform_of_rejected {e : CallError} (h : (app.perform cipher supply call).1 = .error e)
    (he : e.IsRejection) : (app.perform cipher supply call).2 = app := by
  by_cases htells : call.Tells
  · exact perform_of_tells cipher supply app htells
  cases call with
  | change command =>
    rw [perform_change] at h
    obtain ⟨cause, -, rfl⟩ := map_mapError_eq_error h
    exact he.elim
  | setSetting key value =>
    rw [perform_setSetting] at h ⊢
    obtain ⟨cause, hcause, rfl⟩ := map_mapError_eq_error h
    refine set_of_rejected hcause ?_
    rintro reason rfl
    exact he
  | callVault call =>
    cases hon : app.vaultEnabled with
    | true =>
      rw [perform_callVault hon] at h
      obtain ⟨cause, -, rfl⟩ := map_mapError_eq_error h
      exact he.elim
    | false => rw [perform_callVault_of_disabled hon]
  | lockVault => cases h
  | setFlags flags =>
    rw [perform_setFlags] at h
    obtain ⟨cause, -, rfl⟩ := map_mapError_eq_error h
    exact he.elim
  | _ => exact absurd trivial htells

theorem answer_of_rejected {e : CallError} (h : (app.answer cipher supply method params).1 = .error e)
    (he : e.IsRejection) : (app.answer cipher supply method params).2 = app := by
  unfold answer at h ⊢
  cases hcall : Call.ofRequest method params with
  | ok call =>
    rw [hcall] at h
    exact perform_of_rejected h he
  | error cause => rfl

end Application
end Bookmarks
