import Bookmarks.Proofs.Settings.Sites
import Bookmarks.Settings.File

/-! # Changing one setting

A change goes through a document in memory: a value is put where a key leads, the document is
read, and what is read becomes the settings, which are then written.  **What comes of it is
decided by the key, by the value and by the place of the file, in this order**
(`set_decides_key_then_value`): the key has to be one of seven, the value has to be of the type
of the section or field that stands there, and then every other field is kept.

The settings are in memory before they are written, so **only a change that cannot be written
is an error that leaves other settings behind** (`error_keeps_settings_iff`).
-/
namespace Bookmarks

namespace Place

/-- A text can be put into the file at a place. -/
def Admits (place : Place) : Prop :=
  ∀ text, (place.write text).1 = .ok ()

variable {place : Place}

theorem write_of_admits (h : place.Admits) (text : String) : place.write text = (.ok (), .file text) := by
  cases place with
  | vacant => rfl
  | file _ => rfl
  | fixed _ _ => cases h text
  | directory => cases h text
  | barred => cases h text
  | unfit _ => cases h text

/-- Where a text cannot be put into the file, none can, and the file keeps what it holds, or
is left with what there is room for. -/
theorem write_of_not_admits (h : ¬ place.Admits) :
    ∃ reason, ∀ text, (place.write text).1 = .error (.io reason) ∧
      ((place.write text).2.text? = place.text? ∨
        ∃ held left, place = .fixed held left ∧ (place.write text).2 = .fixed left left) := by
  cases place with
  | vacant => exact absurd (fun _ => rfl) h
  | file _ => exact absurd (fun _ => rfl) h
  | fixed held left => exact ⟨_, fun _ => ⟨rfl, Or.inr ⟨held, left, rfl, rfl⟩⟩⟩
  | directory => exact ⟨_, fun _ => ⟨rfl, Or.inl rfl⟩⟩
  | barred => exact ⟨_, fun _ => ⟨rfl, Or.inl rfl⟩⟩
  | unfit becomesDirectory => exact ⟨_, fun _ => ⟨rfl, Or.inl (by cases becomesDirectory <;> rfl)⟩⟩

end Place

namespace SettingsFile

open Settings

variable {f : SettingsFile} {place : Place} {s : Settings} {key : String} {value : Json}

/-! ## Editing -/

/-- A key that leads nowhere is refused. -/
theorem edited_of_no_site (h : ∀ site : Site, key ≠ site.key) (s : Settings) (value : Json) :
    ∃ reason, edited s key value = .error (.invalidKey reason) := by
  unfold edited
  split
  · exact ⟨_, rfl⟩
  · cases hreplaced : (Path.ofKey key).replace value (codec.toValue s) with
    | error fault =>
      cases fault with
      | notFound => exact ⟨_, rfl⟩
      | notAnObject => exact ⟨_, rfl⟩
    | ok document =>
      obtain ⟨site, hsite⟩ := exists_at?_key_iff.mp (Path.exists_replace_iff.mp ⟨document, hreplaced⟩)
      exact absurd hsite (h site)

/-- At a place the value decides, and nothing else can be at fault. -/
theorem edited_of_site (site : Site) (s : Settings) (value : Json) : edited s site.key value =
    (site.decode s value).mapError fun fault =>
      .invalidValue ("Invalid value for key '" ++ site.key ++ "': " ++ fault.message .value) := by
  unfold edited
  rw [site.key_not_blank, if_neg Bool.false_ne_true, site.replace_toValue]
  dsimp only
  rw [ofValue_document]
  cases site.decode s value <;> rfl

/-! ## Setting -/

theorem set_of_edited_error {cause : SettingsError} (h : edited f.settings key value = .error cause) (place : Place) :
    f.set place key value = ⟨.error cause, f, place⟩ := by
  unfold set
  rw [h]

theorem set_of_edited_ok (h : edited f.settings key value = .ok s) (place : Place) :
    f.set place key value = ⟨(place.write (codec.pretty s)).1, ⟨f.path, s⟩, (place.write (codec.pretty s)).2⟩ := by
  unfold set
  rw [h]
  rfl

/-- A value that does not stand for anything at its place changes nothing. -/
theorem set_of_site_faulty {site : Site} {fault : Fault} (h : site.decode f.settings value = .error fault)
    (place : Place) : f.set place site.key value =
      ⟨.error (.invalidValue ("Invalid value for key '" ++ site.key ++ "': " ++ fault.message .value)), f, place⟩ := by
  refine set_of_edited_error ?_ place
  rw [edited_of_site, h]
  rfl

/-- Any other value is taken, and the settings are written if they can be. -/
theorem set_of_site {site : Site} (hplace : place.Admits) (h : site.decode f.settings value = .ok s) :
    f.set place site.key value = ⟨.ok (), ⟨f.path, s⟩, .file (codec.pretty s)⟩ := by
  have hedited : edited f.settings site.key value = .ok s := by
    rw [edited_of_site, h]
    rfl
  rw [set_of_edited_ok hedited place, Place.write_of_admits hplace]

/-- An edit fails because of the key or because of the value. -/
theorem edited_error_cases {cause : SettingsError} (h : edited s key value = .error cause) :
    (∃ reason, cause = .invalidKey reason) ∨ ∃ reason, cause = .invalidValue reason := by
  by_cases hsite : ∃ site : Site, key = site.key
  · obtain ⟨site, rfl⟩ := hsite
    rw [edited_of_site] at h
    cases hdecoded : site.decode s value with
    | ok t =>
      rw [hdecoded] at h
      cases h
    | error fault =>
      rw [hdecoded] at h
      cases h
      exact Or.inr ⟨_, rfl⟩
  · obtain ⟨reason, hreason⟩ := edited_of_no_site (not_exists.mp hsite) s value
    rw [hreason] at h
    cases h
    exact Or.inl ⟨reason, rfl⟩

/-- **When a change that fails leaves the settings as they were**: where the file could have been
written, or the change would have led to the same settings.

A key or a value that is refused changes nothing.  The only other error is that the file cannot
be written, and then the new settings are in memory, while the file holds what it held, or what
a full disk had room for. -/
theorem error_keeps_settings_iff (f : SettingsFile) (place : Place) (key : String) (value : Json) :
    let outcome := f.set place key value
    ((∀ e, outcome.answer = .error e → outcome.settingsFile.settings = f.settings) ↔
      place.Admits ∨ ∀ s, edited f.settings key value = .ok s → s = f.settings) ∧
    (∀ e, outcome.answer = .error e →
      ((∃ reason, e = .invalidKey reason) ∨ ∃ reason, e = .invalidValue reason) ∧
          outcome.settingsFile = f ∧ outcome.place = place ∨
        (∃ reason, e = .io reason) ∧ ¬ place.Admits ∧
          edited f.settings key value = .ok outcome.settingsFile.settings ∧
          outcome.settingsFile.path = f.path ∧
          (outcome.place.text? = place.text? ∨
            ∃ held left, place = .fixed held left ∧ outcome.place = .fixed left left)) := by
  intro outcome
  cases hedited : edited f.settings key value with
  | error cause =>
    have houtcome : outcome = ⟨.error cause, f, place⟩ := set_of_edited_error hedited place
    rw [houtcome]
    refine ⟨⟨fun _ => Or.inr nofun, fun _ _ _ => rfl⟩, fun e he => Or.inl ⟨?_, rfl, rfl⟩⟩
    obtain rfl := Except.error.inj he
    exact edited_error_cases hedited
  | ok s =>
    have houtcome := set_of_edited_ok hedited place
    rw [show outcome = _ from houtcome]
    by_cases hadmits : place.Admits
    · rw [Place.write_of_admits hadmits]
      exact ⟨⟨fun _ => Or.inl hadmits, nofun⟩, nofun⟩
    · obtain ⟨reason, hrefused⟩ := Place.write_of_not_admits hadmits
      obtain ⟨hanswer, hleft⟩ := hrefused (codec.pretty s)
      refine ⟨⟨fun h => Or.inr ?_, fun h e _ => ?_⟩, fun e he => Or.inr ⟨⟨reason, ?_⟩, hadmits, rfl, rfl, hleft⟩⟩
      · rintro _ ⟨⟩
        exact h _ hanswer
      · exact (h.resolve_left hadmits) s rfl
      · exact Except.error.inj (he.symm.trans hanswer)

/-- The vault is switched off while the settings cannot be written. -/
theorem not_every_error_keeps_settings :
    ¬ ∀ (f : SettingsFile) (place : Place) (key : String) (value : Json) (e : SettingsError),
      (f.set place key value).answer = .error e → (f.set place key value).settingsFile.settings = f.settings := by
  intro h
  have hedited : edited Settings.defaults (Site.entry .enabled).key (.bool false) =
      .ok ⟨⟨none⟩, ⟨false, none⟩, ⟨"info"⟩⟩ := edited_of_site (.entry .enabled) _ _
  have hset := set_of_edited_ok (f := .new "config/settings.json") hedited .directory
  have hkept := h _ _ _ _ (.io "Failed to write config file") (congrArg Outcome.answer hset)
  rw [hset] at hkept
  exact absurd hkept (by decide)

/-! ## What is written -/

/-- What was written is loaded. -/
theorem load_pretty (f : SettingsFile) (s : Settings) :
    f.load (.file (codec.pretty s)) = (.ok (), { f with settings := s }) := by
  simp only [load, (codec_readsBack s).pretty]

theorem valueWithin_ofString? (text : Option String) (depth : Nat) :
    Document.valueWithin depth (Json.ofString? text).toDocument = some (Json.ofString? text) := by
  cases text <;> rfl

theorem valueWithin_minutes (s : VaultSettings) (depth : Nat) :
    Document.valueWithin depth s.minutes.toDocument = some s.minutes := by
  unfold VaultSettings.minutes
  cases s.autoLockMinutes <;> rfl

/-- What the settings are written as stands for the document in memory. -/
theorem value?_toJson (s : Settings) : s.toJson.toDocument.value? = some (codec.toValue s) := by
  have hvault : s.vault.toJson = .object s.vault.members := rfl
  simp [hvault, VaultSettings.members, StorageSettings.toJson, LoggingSettings.toJson, toJson, codec, Codec.toValue,
    Document.value?, Document.maxDepth, Document.valueWithin, Document.membersWithin, Json.toDocument,
    Json.toDocumentMembers, valueWithin_ofString?, valueWithin_minutes, Json.sorted, Json.sortedMembers,
    sorted_ofString?, sorted_minutes]

/-- The JSON of the text that settings are kept as. -/
theorem ofText_pretty_eq_toValue (s : Settings) : Codec.json.ofText (codec.pretty s) = .ok (codec.toValue s) := by
  have hdocument : Document.ofText? (codec.pretty s) = some s.toJson.toDocument := Json.ofText?_pretty (codec_keeps s).whole
  unfold Document.ofText? at hdocument
  simp only [Codec.ofText, Codec.ofSymbols, hdocument, Codec.json, value?_toJson]

/-- **What a change comes to**, where the file can be written.

The key is refused exactly if it is none of the seven that lead to a section of the document
of settings or to a field of one.  At such a place the value is refused exactly if the document
with the value there is not one of settings, and nothing has changed.  Otherwise the change
succeeds, and its settings are the ones that the document stands for: every field outside the
place has the value it had, the text of the file is the JSON of these settings, and they are
loaded from it. -/
theorem set_decides_key_then_value (f : SettingsFile) {place : Place} (hplace : place.Admits) (key : String)
    (value : Json) :
    let outcome := f.set place key value
    ((∃ reason, outcome.answer = .error (.invalidKey reason)) ↔
      ¬ ∃ old, (codec.toValue f.settings).at? (Text.fields '.' key) = some old) ∧
    ((∃ old, (codec.toValue f.settings).at? (Text.fields '.' key) = some old) ↔ ∃ site : Site, key = site.key) ∧
    ∀ site : Site, key = site.key →
      let decoded := codec.ofValue (site.document f.settings value)
      ((∃ reason, outcome.answer = .error (.invalidValue reason)) ↔ ∃ fault, decoded = .error fault) ∧
      (∀ fault, decoded = .error fault → outcome.settingsFile = f ∧ outcome.place = place) ∧
      ∀ s, decoded = .ok s →
        outcome.answer = .ok () ∧ outcome.settingsFile = ⟨f.path, s⟩ ∧
        (∀ field, ¬ site.Covers field → field.Agrees s f.settings) ∧
        (∃ text, outcome.place = .file text ∧ Codec.json.ofText text = .ok (codec.toValue s)) ∧
        (SettingsFile.new f.path).load outcome.place = (.ok (), outcome.settingsFile) := by
  intro outcome
  rw [exists_at?_key_iff]
  refine ⟨⟨?_, ?_⟩, Iff.rfl, ?_⟩
  · rintro ⟨reason, hanswer⟩ ⟨site, rfl⟩
    cases hvalue : site.decode f.settings value with
    | error fault =>
      rw [show outcome = _ from set_of_site_faulty hvalue place] at hanswer
      cases hanswer
    | ok s =>
      rw [show outcome = _ from set_of_site hplace hvalue] at hanswer
      cases hanswer
  · intro hsite
    obtain ⟨reason, hreason⟩ := edited_of_no_site (not_exists.mp hsite) f.settings value
    exact ⟨reason, congrArg Outcome.answer (set_of_edited_error hreason place)⟩
  · rintro site rfl decoded
    rw [show decoded = site.decode f.settings value from ofValue_document _ _ _]
    cases hvalue : site.decode f.settings value with
    | error fault =>
      rw [show outcome = _ from set_of_site_faulty hvalue place]
      exact ⟨⟨fun _ => ⟨fault, rfl⟩, fun _ => ⟨_, rfl⟩⟩, fun _ _ => ⟨rfl, rfl⟩, nofun⟩
    | ok s =>
      rw [show outcome = _ from set_of_site hplace hvalue]
      refine ⟨⟨nofun, nofun⟩, nofun, ?_⟩
      rintro _ ⟨⟩
      exact ⟨rfl, rfl, fun field => Site.agrees_of_decode hvalue, ⟨_, rfl, ofText_pretty_eq_toValue s⟩,
        load_pretty (.new f.path) s⟩

/-- The minutes are set in a file that is yet to be made. -/
theorem minutes_set_and_loaded :
    let f := SettingsFile.new "config/settings.json"
    let outcome := f.set .vacant "vault.auto_lock_minutes" (.ofNat 15)
    outcome.answer = .ok () ∧ outcome.settingsFile.settings = ⟨⟨none⟩, ⟨true, some 15⟩, ⟨"info"⟩⟩ ∧
      f.load outcome.place = (.ok (), outcome.settingsFile) := by
  intro f outcome
  have hvacant : Place.vacant.Admits := fun _ => rfl
  obtain ⟨-, -, hsites⟩ := set_decides_key_then_value f hvacant "vault.auto_lock_minutes" (.ofNat 15)
  obtain ⟨-, -, hsucceeds⟩ := hsites (.entry .autoLockMinutes) rfl
  obtain ⟨hanswer, hfile, -, -, hload⟩ := hsucceeds _ (ofValue_document _ _ _)
  exact ⟨hanswer, congrArg settings hfile, hload⟩

end SettingsFile

end Bookmarks
