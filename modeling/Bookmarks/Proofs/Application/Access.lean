import Bookmarks.Call.Answer
import Bookmarks.Proofs.Vault.Lifecycle

/-! # Access to the private links

While the settings have the vault switched off nobody is to get at the private links:
the vault is not unlocked, asking for the links fails, and no call opens the token
(`Guarded`).  Every call leaves it so but one.  A setting is in force as soon as it is
in memory, and **the vault is locked only where the setting has the key `vault.enabled`
and could be written**; put through the section as a whole, or when the file cannot be
written, the vault is switched off and stays unlocked (`Leaks`).
-/
namespace Bookmarks.Application

variable {cipher : Cipher} {supply : Supply} {app : Application}

/-- The private links are in memory though the vault is switched off. -/
def Exposed (app : Application) : Prop :=
  app.vaultEnabled = false ∧ app.vault.isUnlocked = true

/-- Nobody gets at the private links while the vault is switched off, nor after that
before it is switched on and unlocked. -/
structure Guarded (app : Application) : Prop where
  not_unlocked : app.vaultEnabled = false → app.vault.isUnlocked = false
  refused : ¬ (app.vaultEnabled = true ∧ app.vault.isUnlocked = true) →
    ∀ cipher supply params, app.answer cipher supply "vault.links" params = (.error (.vault .locked), app)
  /-- What a call answers and does has nothing to do with how tokens are opened. -/
  unopened : app.vaultEnabled = false → ∀ cipher cipher' supply method params,
    app.answer cipher supply method params = app.answer cipher' supply method params

/-! ## Calls while the vault is switched off -/

theorem ofRequest_vaultLinks (params : Json) : Call.ofRequest "vault.links" params = .ok .vaultLinks := by
  rfl

theorem answer_vaultLinks_of_not_unlocked (h : app.vault.isUnlocked = false) (params : Json) :
    app.answer cipher supply "vault.links" params = (.error (.vault .locked), app) := by
  rw [answer, ofRequest_vaultLinks]
  simp only [perform, Vault.links_of_not_unlocked h]

theorem perform_cipher (h : app.vaultEnabled = false) (cipher' : Cipher) (call : Call) :
    app.perform cipher supply call = app.perform cipher' supply call := by
  cases call with
  | callVault call => simp only [perform, h, Bool.false_eq_true, if_false]
  | listLinks categoryId => cases categoryId <;> rfl
  | _ => simp only [perform]

theorem guarded_iff : app.Guarded ↔ ¬ app.Exposed := by
  constructor
  · rintro h ⟨hoff, hunlocked⟩
    rw [h.not_unlocked hoff] at hunlocked
    cases hunlocked
  · intro h
    have hlocked : app.vaultEnabled = false → app.vault.isUnlocked = false := by
      intro hoff
      exact Bool.eq_false_iff.mpr fun hunlocked => h ⟨hoff, hunlocked⟩
    refine ⟨hlocked, fun hshut cipher supply params => ?_, fun hoff cipher cipher' supply method params => ?_⟩
    · refine answer_vaultLinks_of_not_unlocked (Bool.eq_false_iff.mpr fun hunlocked => ?_) params
      cases hon : app.vaultEnabled with
      | true => exact hshut ⟨hon, hunlocked⟩
      | false => exact h ⟨hon, hunlocked⟩
    · unfold answer
      split
      · exact perform_cipher hoff cipher' _
      · rfl

/-! ## Changes of a setting -/

/-- A call that changes a setting switches the vault off and does not lock it: the key
is not the vault's own, or the settings cannot be written. -/
def Uncovers (app : Application) (call : Call) : Prop :=
  app.vault.isUnlocked = true ∧ ∃ key value settings,
    call = .setSetting key value ∧
    SettingsFile.edited app.settingsFile.settings key value = .ok settings ∧
    settings.vault.enabled = false ∧
    (key ≠ "vault.enabled" ∨ ∃ e, (app.place.write (Settings.codec.pretty settings)).1 = .error e)

theorem set_of_refused {key : String} {value : Json} {e : SettingsError}
    (h : SettingsFile.edited app.settingsFile.settings key value = .error e) :
    app.set key value = (.error e, app) := by
  simp only [set, SettingsFile.set, h]

/-- Where new settings come into memory, the vault is locked only on the way on which the
key is its own and the file was written. -/
theorem set_exposed_iff {key : String} {value : Json} {settings : Settings}
    (h : SettingsFile.edited app.settingsFile.settings key value = .ok settings) :
    (app.set key value).2.Exposed ↔
      app.vault.isUnlocked = true ∧ settings.vault.enabled = false ∧
        (key ≠ "vault.enabled" ∨ ∃ e, (app.place.write (Settings.codec.pretty settings)).1 = .error e) := by
  simp only [set, SettingsFile.set, h, SettingsFile.save]
  cases hw : (app.place.write (Settings.codec.pretty settings)).1 with
  | error e =>
    show settings.vault.enabled = false ∧ app.vault.isUnlocked = true ↔ _
    exact ⟨fun ⟨hoff, hunlocked⟩ => ⟨hunlocked, hoff, .inr ⟨e, rfl⟩⟩, fun ⟨hunlocked, hoff, _⟩ => ⟨hoff, hunlocked⟩⟩
  | ok u =>
    by_cases hkey : key = "vault.enabled" ∧ settings.vault.enabled = false
    · obtain ⟨hkey, hoff⟩ := hkey
      rw [if_pos ⟨hkey, by simp only [vaultEnabled, hoff]; rfl⟩]
      constructor
      · rintro ⟨-, hunlocked⟩
        cases hunlocked
      · rintro ⟨-, -, hne | ⟨e, he⟩⟩
        · exact absurd hkey hne
        · cases he
    · rw [if_neg fun hc => hkey ⟨hc.1, by simpa [vaultEnabled] using hc.2⟩]
      show settings.vault.enabled = false ∧ app.vault.isUnlocked = true ↔ _
      constructor
      · rintro ⟨hoff, hunlocked⟩
        exact ⟨hunlocked, hoff, .inl fun heq => hkey ⟨heq, hoff⟩⟩
      · rintro ⟨hunlocked, hoff, -⟩
        exact ⟨hoff, hunlocked⟩

/-! ## What a call does to the vault and the settings -/

/-- A call that changes no setting leaves the settings alone and, with the vault switched
off, leaves the vault alone or locks it. -/
theorem perform_frame (cipher : Cipher) (supply : Supply) {call : Call}
    (hcall : ∀ key value, call ≠ .setSetting key value) :
    (app.perform cipher supply call).2.settingsFile = app.settingsFile ∧
    (app.vaultEnabled = false →
      (app.perform cipher supply call).2.vault = app.vault ∨ (app.perform cipher supply call).2.vault = .locked) := by
  cases call with
  | setSetting key value => exact absurd rfl (hcall key value)
  | callVault call =>
    simp only [perform]
    cases hon : app.vaultEnabled with
    | true =>
      refine ⟨?_, fun hoff => nomatch hoff⟩
      have hframe : (app.callVault cipher supply call).2.settingsFile = app.settingsFile := rfl
      simp only [if_true]
      split <;> next heq => rw [← hframe, heq]
    | false => exact ⟨rfl, fun _ => .inl rfl⟩
  | listLinks categoryId => cases categoryId <;> exact ⟨rfl, fun _ => .inl rfl⟩
  | change command =>
    have hframe : (app.perform cipher supply (.change command)).2 = (app.run supply command).2 := by
      simp only [perform]
      split <;> next heq => rw [heq]
    rw [hframe]
    exact ⟨rfl, fun _ => .inl rfl⟩
  | getFlags =>
    simp only [perform]
    split <;> exact ⟨rfl, fun _ => .inl rfl⟩
  | setFlags flags =>
    simp only [perform]
    split <;> exact ⟨rfl, fun _ => .inl rfl⟩
  | vaultLinks =>
    simp only [perform]
    split <;> exact ⟨rfl, fun _ => .inl rfl⟩
  | lockVault => exact ⟨rfl, fun _ => .inr rfl⟩
  | _ => exact ⟨rfl, fun _ => .inl rfl⟩

theorem perform_set (key : String) (value : Json) :
    (app.perform cipher supply (.setSetting key value)).2 = (app.set key value).2 := by
  simp only [perform]
  split <;> next heq => rw [heq]

theorem uncovers_set_iff {key : String} {value : Json} : app.Uncovers (.setSetting key value) ↔
    ∃ settings, SettingsFile.edited app.settingsFile.settings key value = .ok settings ∧
      app.vault.isUnlocked = true ∧ settings.vault.enabled = false ∧
      (key ≠ "vault.enabled" ∨ ∃ e, (app.place.write (Settings.codec.pretty settings)).1 = .error e) := by
  constructor
  · rintro ⟨hunlocked, key', value', settings, heq, hedit, hoff, hwhy⟩
    obtain ⟨rfl, rfl⟩ := Call.setSetting.inj heq
    exact ⟨settings, hedit, hunlocked, hoff, hwhy⟩
  · rintro ⟨settings, hedit, hunlocked, hoff, hwhy⟩
    exact ⟨hunlocked, key, value, settings, rfl, hedit, hoff, hwhy⟩

theorem perform_set_exposed_iff (h : ¬ app.Exposed) (key : String) (value : Json) :
    (app.perform cipher supply (.setSetting key value)).2.Exposed ↔ app.Uncovers (.setSetting key value) := by
  rw [perform_set, uncovers_set_iff]
  cases hedit : SettingsFile.edited app.settingsFile.settings key value with
  | error e =>
    rw [set_of_refused hedit]
    constructor
    · intro hexposed
      exact absurd hexposed h
    · rintro ⟨settings, hsettings, -⟩
      cases hsettings
  | ok settings =>
    rw [set_exposed_iff hedit]
    constructor
    · intro hleft
      exact ⟨settings, rfl, hleft⟩
    · rintro ⟨settings', hsettings, hleft⟩
      obtain rfl := Except.ok.inj hsettings
      exact hleft

theorem perform_not_exposed (h : ¬ app.Exposed) {call : Call} (hcall : ∀ key value, call ≠ .setSetting key value) :
    ¬ (app.perform cipher supply call).2.Exposed := by
  obtain ⟨hsettings, hvault⟩ := perform_frame cipher supply hcall
  rintro ⟨hoff, hunlocked⟩
  have hoff' : app.vaultEnabled = false := by rw [← hoff, vaultEnabled, vaultEnabled, hsettings]
  rcases hvault hoff' with heq | heq
  · rw [heq] at hunlocked
    exact h ⟨hoff', hunlocked⟩
  · rw [heq] at hunlocked
    cases hunlocked

/-- **A call exposes the private links exactly when it uncovers them.** -/
theorem perform_exposed_iff (h : ¬ app.Exposed) (call : Call) :
    (app.perform cipher supply call).2.Exposed ↔ app.Uncovers call := by
  by_cases hcall : ∃ key value, call = .setSetting key value
  · obtain ⟨key, value, rfl⟩ := hcall
    exact perform_set_exposed_iff h key value
  · have hother : ∀ key value, call ≠ .setSetting key value := fun key value heq => hcall ⟨key, value, heq⟩
    constructor
    · intro hexposed
      exact absurd hexposed (perform_not_exposed h hother)
    · rintro ⟨-, key, value, -, heq, -⟩
      exact absurd heq (hother key value)

/-! ## Runs -/

/-- A request, with what the storage refuses and what is at the place of the settings
while it is answered. -/
structure Event where
  supply : Supply
  method : String
  params : Json
  refusesReads : Bool
  refusesWrites : Bool
  place : Place

/-- The application in the surroundings of an event. -/
def under (app : Application) (e : Event) : Application :=
  { app with
    storage := { app.storage with refusesReads := e.refusesReads, refusesWrites := e.refusesWrites }
    place := e.place }

/-- The application after a request. -/
def step (cipher : Cipher) (app : Application) (e : Event) : Application :=
  ((app.under e).answer cipher e.supply e.method e.params).2

/-- The application after requests, one after the other. -/
def after (cipher : Cipher) : Application → List Event → Application :=
  List.foldl (step cipher)

/-- A request that uncovers the private links. -/
def Leaks (app : Application) (e : Event) : Prop :=
  ∃ call, Call.ofRequest e.method e.params = .ok call ∧ (app.under e).Uncovers call

theorem step_exposed_iff (h : ¬ app.Exposed) (e : Event) : (app.step cipher e).Exposed ↔ app.Leaks e := by
  have hunder : ¬ (app.under e).Exposed := h
  unfold step answer Leaks
  cases hcall : Call.ofRequest e.method e.params with
  | ok call =>
    show ((app.under e).perform cipher e.supply call).2.Exposed ↔ _
    rw [perform_exposed_iff hunder]
    constructor
    · intro huncovers
      exact ⟨call, rfl, huncovers⟩
    · rintro ⟨call', heq, huncovers⟩
      obtain rfl := Except.ok.inj heq
      exact huncovers
  | error cause =>
    constructor
    · intro hexposed
      exact absurd hexposed hunder
    · rintro ⟨call, heq, -⟩
      cases heq

theorem after_take_succ {events : List Event} {n : Nat} {e : Event} (he : events[n]? = some e) :
    app.after cipher (events.take (n + 1)) = (app.after cipher (events.take n)).step cipher e := by
  rw [List.take_add_one, he, after, List.foldl_append]
  rfl

/-- **A switched-off vault guards its links exactly as long as no request leaks**: an
application is guarded after every request if and only if it was guarded to begin with
and none of the requests changes a setting so that an unlocked vault is switched off by
another key than `vault.enabled`, or while the settings cannot be written. -/
theorem guarded_throughout_iff (cipher : Cipher) (app : Application) (events : List Event) :
    (∀ n, (app.after cipher (events.take n)).Guarded) ↔
      app.Guarded ∧ ∀ n e, events[n]? = some e → ¬ (app.after cipher (events.take n)).Leaks e := by
  constructor
  · intro h
    refine ⟨h 0, fun n e he hleaks => ?_⟩
    have hbefore := guarded_iff.mp (h n)
    have hafter := guarded_iff.mp (h (n + 1))
    rw [after_take_succ he] at hafter
    exact hafter ((step_exposed_iff hbefore e).mpr hleaks)
  · rintro ⟨hstart, hleaks⟩ n
    -- Before the end of the requests every step is one of `step_exposed_iff`; after it
    -- nothing more happens.
    induction n with
    | zero => exact hstart
    | succ n ih =>
      cases he : events[n]? with
      | none =>
        rw [List.take_add_one, he, Option.toList_none, List.append_nil]
        exact ih
      | some e =>
        rw [after_take_succ he, guarded_iff, step_exposed_iff (guarded_iff.mp ih) e]
        exact hleaks n e he

/-- The vault is unlocked and given a link, and then switched off through its section of
the settings; the link is still told. -/
theorem links_told_while_switched_off :
    let supply : Supply := ⟨fun _ => "0d5b8a4e-7f21-4c36-9e0a-000000000000", 5, Supply.cut 16 [], Supply.cut 12 []⟩
    let request (method : String) (params : Json) : Event := ⟨supply, method, params, false, false, .vacant⟩
    let app := (start Storage.empty (.new "settings.json") .vacant).after .standard
      [request "vault.unlock" (.object [("password", .string "pw")]),
        request "vault.add" (.object [("url", .string "https://lean-lang.org"), ("title", .string "Lean")]),
        request "settings.set" (.object [("key", .string "vault"), ("value", .object [("enabled", .bool false)])])]
    let link : Link := ⟨supply.id 0, "https://lean-lang.org", "Lean", none, "private", none, false, some 0, none, 5⟩
    app.vaultEnabled = false ∧ app.vault.isUnlocked = true ∧
      (app.answer .standard supply "vault.links" (.object [])).1 = .ok (Link.codec.list.toValue [link]) := by
  intro supply request app link
  have hvault : app.vault = .unlocked "pw" [link] := by decide
  refine ⟨by decide, by rw [hvault]; rfl, ?_⟩
  rw [answer, ofRequest_vaultLinks]
  simp only [perform, hvault, Vault.links]

end Bookmarks.Application
