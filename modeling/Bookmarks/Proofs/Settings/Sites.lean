import Bookmarks.Proofs.Settings.Codec
import Bookmarks.Proofs.Settings.Path
import Mathlib.Logic.Function.Basic

/-! # The places of the settings document

Settings are kept in memory as a document of three sections with four fields in all, the
members of each object in the order of their keys (`toValue_eq`).  So a key names one of seven
places: a section as a whole, or a field of one (`Site`).  **No other key leads to anything**
(`exists_at?_toValue_iff`), since nothing else has members.

A document with another value at a place is read as if the value were read by itself, as the
section or the field that stands there (`ofValue_document`): everything else was written, and
is read back as it was.
-/
namespace Bookmarks.Settings

open Json Record

/-! ## Places -/

/-- The sections of settings. -/
inductive Section where
  | storage
  | vault
  | logging
  deriving DecidableEq, Repr

/-- The fields of all sections. -/
inductive Field where
  | databasePath
  | enabled
  | autoLockMinutes
  | level
  deriving DecidableEq, Repr

/-- The member that a section is. -/
def Section.name : Section → String
  | .storage => "storage"
  | .vault => "vault"
  | .logging => "logging"

/-- The section that a field belongs to. -/
def Field.owner : Field → Section
  | .databasePath => .storage
  | .enabled => .vault
  | .autoLockMinutes => .vault
  | .level => .logging

/-- The member of its section that a field is. -/
def Field.name : Field → String
  | .databasePath => "database_path"
  | .enabled => "enabled"
  | .autoLockMinutes => "auto_lock_minutes"
  | .level => "level"

/-- A place of the document: a section as a whole, or a field of one. -/
inductive Site where
  | whole (part : Section)
  | entry (field : Field)
  deriving DecidableEq, Repr

namespace Site

/-- The members on the way to a place. -/
def way : Site → List String
  | .whole part => [part.name]
  | .entry field => [field.owner.name, field.name]

/-- The key of a place. -/
def key : Site → String
  | .whole part => part.name
  | .entry field => field.owner.name ++ "." ++ field.name

/-- What a place holds: a section holds its fields. -/
def Covers : Site → Field → Prop
  | .whole part, field => field.owner = part
  | .entry held, field => field = held

end Site

/-- Two settings have the same value of a field. -/
def Field.Agrees (s t : Settings) : Field → Prop
  | .databasePath => s.storage.databasePath = t.storage.databasePath
  | .enabled => s.vault.enabled = t.vault.enabled
  | .autoLockMinutes => s.vault.autoLockMinutes = t.vault.autoLockMinutes
  | .level => s.logging.level = t.logging.level

/-! ## The document -/

variable {s t : Settings} {value : Json}

/-- A field as it is written. -/
def written (s : Settings) : Field → Json
  | .databasePath => .ofString? s.storage.databasePath
  | .enabled => .bool s.vault.enabled
  | .autoLockMinutes => s.vault.minutes
  | .level => .string s.logging.level

/-- A section with given values of its fields. -/
def sectionOf (fields : Field → Json) : Section → Json
  | .storage => .object [(Field.databasePath.name, fields .databasePath)]
  | .vault => .object [(Field.autoLockMinutes.name, fields .autoLockMinutes), (Field.enabled.name, fields .enabled)]
  | .logging => .object [(Field.level.name, fields .level)]

/-- The document with given sections. -/
def documentOf (sections : Section → Json) : Json :=
  .object [(Section.logging.name, sections .logging), (Section.storage.name, sections .storage),
    (Section.vault.name, sections .vault)]

/-- The document of settings with another value at a place. -/
def Site.document (s : Settings) (value : Json) : Site → Json
  | .whole part => documentOf (Function.update (sectionOf s.written) part value)
  | .entry field => documentOf (sectionOf (Function.update s.written field value))

theorem sorted_ofString? (text : Option String) : (Json.ofString? text).sorted = Json.ofString? text := by
  cases text <;> rfl

theorem sorted_minutes (s : VaultSettings) : s.minutes.sorted = s.minutes := by
  unfold VaultSettings.minutes
  cases s.autoLockMinutes <;> rfl

theorem sorted_storage (s : Settings) : s.storage.toJson.sorted = sectionOf s.written .storage := by
  simp [StorageSettings.toJson, sorted, sortedMembers, sortMembers, insertMember, sorted_ofString?, sectionOf, written,
    Field.name]

theorem sorted_vault (s : Settings) : s.vault.toJson.sorted = sectionOf s.written .vault := by
  have hmembers : s.vault.toJson = .object s.vault.members := rfl
  simp only [hmembers, VaultSettings.members, sorted, sortedMembers, sortMembers, List.foldl_cons, List.foldl_nil,
    insertMember, String.reduceLT, ↓reduceIte, sorted_minutes, sectionOf, written, Field.name]

theorem sorted_logging (s : Settings) : s.logging.toJson.sorted = sectionOf s.written .logging := by
  simp [LoggingSettings.toJson, sorted, sortedMembers, sortMembers, insertMember, sectionOf, written, Field.name]

/-- **Settings in memory are the document of their sections.** -/
theorem toValue_eq (s : Settings) : codec.toValue s = documentOf (sectionOf s.written) := by
  have hmembers : codec.toValue s = (Json.object
      [("storage", s.storage.toJson), ("vault", s.vault.toJson), ("logging", s.logging.toJson)]).sorted := rfl
  simp only [hmembers, sorted, sortedMembers, sortMembers, List.foldl_cons, List.foldl_nil, insertMember,
    String.reduceLT, String.reduceEq, ↓reduceIte, sorted_storage, sorted_vault, sorted_logging, documentOf, Section.name]

/-! ## Ways -/

theorem get?_documentOf {sections : Section → Json} {name : String} : (documentOf sections).get? name = some value ↔
    ∃ part : Section, part.name = name ∧ sections part = value := by
  constructor
  · intro h
    simp only [documentOf, get?, lookup] at h
    split at h
    · next hname => exact ⟨.logging, hname, Option.some.inj h⟩
    · split at h
      · next hname => exact ⟨.storage, hname, Option.some.inj h⟩
      · split at h
        · next hname => exact ⟨.vault, hname, Option.some.inj h⟩
        · cases h
  · rintro ⟨part, rfl, rfl⟩
    cases part <;> rfl

theorem get?_sectionOf {fields : Field → Json} {part : Section} {name : String} :
    (sectionOf fields part).get? name = some value ↔
      ∃ field : Field, field.owner = part ∧ field.name = name ∧ fields field = value := by
  constructor
  · intro h
    cases part <;> simp only [sectionOf, get?, lookup] at h
    case storage =>
      split at h
      · next hname => exact ⟨.databasePath, rfl, hname, Option.some.inj h⟩
      · cases h
    case vault =>
      split at h
      · next hname => exact ⟨.autoLockMinutes, rfl, hname, Option.some.inj h⟩
      · split at h
        · next hname => exact ⟨.enabled, rfl, hname, Option.some.inj h⟩
        · cases h
    case logging =>
      split at h
      · next hname => exact ⟨.level, rfl, hname, Option.some.inj h⟩
      · cases h
  · rintro ⟨field, rfl, rfl, rfl⟩
    cases field <;> rfl

/-- No field has members. -/
theorem get?_written (s : Settings) (field : Field) (name : String) : (s.written field).get? name = none := by
  cases field with
  | databasePath => cases hpath : s.storage.databasePath <;> simp only [written, hpath, Json.ofString?, get?]
  | enabled => rfl
  | autoLockMinutes =>
    cases hminutes : s.vault.autoLockMinutes <;>
      simp only [written, VaultSettings.minutes, hminutes, Json.ofNat, get?]
  | level => rfl

/-- **The ways through the document of settings are those to its sections and their fields.** -/
theorem exists_at?_toValue_iff {way : List String} (hne : way ≠ []) :
    (∃ old, (codec.toValue s).at? way = some old) ↔ ∃ site : Site, site.way = way := by
  rw [toValue_eq]
  constructor
  · rintro ⟨old, hold⟩
    obtain ⟨first, rest, rfl⟩ := List.exists_cons_of_ne_nil hne
    rw [at?, Option.bind_eq_some_iff] at hold
    obtain ⟨_, hpart, hold⟩ := hold
    obtain ⟨part, rfl, rfl⟩ := get?_documentOf.mp hpart
    cases rest with
    | nil => exact ⟨.whole part, rfl⟩
    | cons second rest =>
      rw [at?, Option.bind_eq_some_iff] at hold
      obtain ⟨_, hfield, hold⟩ := hold
      obtain ⟨field, rfl, rfl, rfl⟩ := get?_sectionOf.mp hfield
      cases rest with
      | nil => exact ⟨.entry field, rfl⟩
      | cons third rest =>
        rw [at?, get?_written] at hold
        cases hold
  · rintro ⟨site, rfl⟩
    cases site with
    | whole part =>
      rw [Site.way, at?, get?_documentOf.mpr ⟨part, rfl, rfl⟩, Option.bind_some]
      exact ⟨_, rfl⟩
    | entry field =>
      rw [Site.way, at?, get?_documentOf.mpr ⟨field.owner, rfl, rfl⟩, Option.bind_some, at?,
        get?_sectionOf.mpr ⟨field, rfl, rfl, rfl⟩, Option.bind_some]
      exact ⟨_, rfl⟩

/-! ## Keys -/

theorem Site.fields_key (site : Site) : Text.fields '.' site.key = site.way := by
  cases site with
  | whole part => cases part <;> decide
  | entry field => cases field <;> decide

theorem Site.key_not_blank (site : Site) : Text.isBlankText site.key = false := by
  cases site with
  | whole part => cases part <;> decide
  | entry field => cases field <;> decide

/-- **A key leads to something exactly if it is one of the seven.** -/
theorem exists_at?_key_iff {key : String} :
    (∃ old, (codec.toValue s).at? (Text.fields '.' key) = some old) ↔ ∃ site : Site, key = site.key := by
  have hne : Text.fields '.' key ≠ [] := fun h =>
    Text.splitAt_ne_nil '.' key.toList (List.map_eq_nil_iff.mp h)
  rw [exists_at?_toValue_iff hne]
  refine exists_congr fun site => ?_
  rw [← site.fields_key, eq_comm]
  exact (Text.fields_injective '.').eq_iff

theorem Site.ofKey_key (site : Site) : Path.ofKey site.key = ⟨site.way.dropLast, site.way.getLastD ""⟩ := by
  rw [← site.fields_key]
  rfl

/-- A value is put where the key of the place leads. -/
theorem Site.replace_toValue (site : Site) (s : Settings) (value : Json) :
    (Path.ofKey site.key).replace value (codec.toValue s) = .ok (site.document s value) := by
  rw [site.ofKey_key, toValue_eq]
  cases site with
  | whole part => cases part <;> rfl
  | entry field => cases field <;> rfl

/-! ## Reading the document -/

/-- What a value stands for at a place, beside settings that are kept. -/
def Site.decode (s : Settings) (value : Json) : Site → Except Fault Settings
  | .whole .storage =>
    (StorageSettings.record.read "StorageSettings" value.toDocument).map fun storage => { s with storage }
  | .whole .vault => (VaultSettings.record.read "VaultSettings" value.toDocument).map fun vault => { s with vault }
  | .whole .logging =>
    (LoggingSettings.record.read "LoggingSettings" value.toDocument).map fun logging => { s with logging }
  | .entry .databasePath =>
    (Document.readOption Document.readString value.toDocument).map fun databasePath => { s with storage := ⟨databasePath⟩ }
  | .entry .enabled =>
    (Document.readBool value.toDocument).map fun enabled => { s with vault := { s.vault with enabled } }
  | .entry .autoLockMinutes =>
    (Document.readOption Document.readUInt32 value.toDocument).map fun autoLockMinutes =>
      { s with vault := { s.vault with autoLockMinutes } }
  | .entry .level => (Document.readString value.toDocument).map fun level => { s with logging := ⟨level⟩ }

/-! ### The sections beside the place -/

theorem read_storage (s : Settings) :
    StorageSettings.record.read "StorageSettings" (sectionOf s.written .storage).toDocument = .ok s.storage := by
  have hun : s.storage.toJson.Unambiguous := ⟨by simp, unambiguous_ofString? s.storage.databasePath, trivial⟩
  rw [← sorted_storage]
  exact StorageSettings.steady_read _ _ hun s.storage.read_toJson

theorem read_vault (s : Settings) :
    VaultSettings.record.read "VaultSettings" (sectionOf s.written .vault).toDocument = .ok s.vault := by
  have hun : s.vault.toJson.Unambiguous := ⟨by simp, trivial, s.vault.unambiguous_minutes, trivial⟩
  rw [← sorted_vault]
  exact VaultSettings.steady_read _ _ hun s.vault.read_toJson

theorem read_logging (s : Settings) :
    LoggingSettings.record.read "LoggingSettings" (sectionOf s.written .logging).toDocument = .ok s.logging := by
  have hun : s.logging.toJson.Unambiguous := ⟨by simp, trivial, trivial⟩
  rw [← sorted_logging]
  exact LoggingSettings.steady_read _ _ hun s.logging.read_toJson

/-- The members of a document with given sections. -/
def membersOf (sections : Section → Json) : List (String × Json) :=
  [(Section.logging.name, sections .logging), (Section.storage.name, sections .storage),
    (Section.vault.name, sections .vault)]

theorem nodup_membersOf (sections : Section → Json) : ((membersOf sections).map Prod.fst).Nodup := by
  simp [membersOf, Section.name]

section Sections
variable (s : Settings) (value : Json) (part : Section)

/-- A document with another value of a section, as its members. -/
def membersBut (s : Settings) (part : Section) (value : Json) : List (String × Json) :=
  membersOf (Function.update (sectionOf s.written) part value)

theorem field_storage (h : Section.storage ≠ part) :
    fieldOfMembers "storage" (StorageSettings.record.read "StorageSettings") (.means .defaults)
      (toDocumentMembers (membersBut s part value)) = .ok s.storage := by
  refine fieldOfMembers_of_lookup (nodup_membersOf _) rfl ?_
  rw [Function.update_of_ne h]
  exact read_storage s

theorem field_vault (h : Section.vault ≠ part) :
    fieldOfMembers "vault" (VaultSettings.record.read "VaultSettings") (.means .defaults)
      (toDocumentMembers (membersBut s part value)) = .ok s.vault := by
  refine fieldOfMembers_of_lookup (nodup_membersOf _) rfl ?_
  rw [Function.update_of_ne h]
  exact read_vault s

theorem field_logging (h : Section.logging ≠ part) :
    fieldOfMembers "logging" (LoggingSettings.record.read "LoggingSettings") (.means .defaults)
      (toDocumentMembers (membersBut s part value)) = .ok s.logging := by
  refine fieldOfMembers_of_lookup (nodup_membersOf _) rfl ?_
  rw [Function.update_of_ne h]
  exact read_logging s

end Sections

/-- **A section is read by itself**, as the other two are read back. -/
theorem ofValue_whole (s : Settings) (value : Json) (part : Section) :
    codec.ofValue (Site.document s value (.whole part)) = Site.decode s value (.whole part) := by
  have hkeys : ((membersBut s part value).map Prod.fst).Nodup := nodup_membersOf _
  refine (read_object_eq record (membersBut s part value) "AppSettings").trans ?_
  unfold record
  cases part with
  | storage =>
    rw [ofMembers_field_eq_of_last (field_logging s value .storage nofun),
      ofMembers_field_eq_of_last (field_vault s value .storage nofun),
      ofMembers_field_eq (ofMembers_make _ _), fieldOfMembers_eq hkeys rfl, Function.update_self]
    unfold Site.decode
    cases StorageSettings.record.read "StorageSettings" value.toDocument <;> rfl
  | vault =>
    rw [ofMembers_field_eq_of_last (field_logging s value .vault nofun),
      ofMembers_field_eq (ofMembers_field (ofMembers_make _ _) (field_storage s value .vault nofun)),
      fieldOfMembers_eq hkeys rfl, Function.update_self]
    unfold Site.decode
    cases VaultSettings.record.read "VaultSettings" value.toDocument <;> rfl
  | logging =>
    rw [ofMembers_field_eq (ofMembers_field (ofMembers_field (ofMembers_make _ _) (field_storage s value .logging nofun))
        (field_vault s value .logging nofun)),
      fieldOfMembers_eq hkeys rfl, Function.update_self]
    unfold Site.decode
    cases LoggingSettings.record.read "LoggingSettings" value.toDocument <;> rfl

/-! ### The section of a field -/

/-- Putting a value in the place of a field is putting it into its section. -/
theorem Site.document_entry (s : Settings) (value : Json) (field : Field) : Site.document s value (.entry field) =
    Site.document s (sectionOf (Function.update s.written field value) field.owner) (.whole field.owner) := by
  cases field <;> rfl

section Entries
variable (s : Settings) (value : Json)

theorem read_entry_databasePath : StorageSettings.record.read "StorageSettings"
      (sectionOf (Function.update s.written .databasePath value) Field.databasePath.owner).toDocument =
    (Document.readOption Document.readString value.toDocument).map StorageSettings.mk := by
  have hkeys : ([(Field.databasePath.name, value)].map Prod.fst).Nodup := List.nodup_singleton _
  refine (read_object_eq StorageSettings.record [(Field.databasePath.name, value)] "StorageSettings").trans ?_
  unfold StorageSettings.record
  rw [ofMembers_field_eq (ofMembers_make _ _), fieldOfMembers_eq hkeys rfl]

theorem read_entry_enabled : VaultSettings.record.read "VaultSettings"
      (sectionOf (Function.update s.written .enabled value) Field.enabled.owner).toDocument =
    (Document.readBool value.toDocument).map fun enabled => { s.vault with enabled } := by
  have hkeys : ([(Field.autoLockMinutes.name, s.vault.minutes), (Field.enabled.name, value)].map Prod.fst).Nodup := by
    simp [Field.name]
  refine (read_object_eq VaultSettings.record
    [(Field.autoLockMinutes.name, s.vault.minutes), (Field.enabled.name, value)] "VaultSettings").trans ?_
  unfold VaultSettings.record
  rw [ofMembers_field_eq_of_last (fieldOfMembers_of_lookup hkeys rfl s.vault.readOption_minutes),
    ofMembers_field_eq (ofMembers_make _ _), fieldOfMembers_eq hkeys rfl]
  cases Document.readBool value.toDocument <;> rfl

theorem read_entry_autoLockMinutes : VaultSettings.record.read "VaultSettings"
      (sectionOf (Function.update s.written .autoLockMinutes value) Field.autoLockMinutes.owner).toDocument =
    (Document.readOption Document.readUInt32 value.toDocument).map fun autoLockMinutes =>
      { s.vault with autoLockMinutes } := by
  let members : List (String × Json) := [(Field.autoLockMinutes.name, value), (Field.enabled.name, .bool s.vault.enabled)]
  have hkeys : (members.map Prod.fst).Nodup := by simp [members, Field.name]
  have henabled : fieldOfMembers "enabled" Document.readBool .refused (toDocumentMembers members) = .ok s.vault.enabled :=
    fieldOfMembers_of_lookup hkeys rfl rfl
  refine (read_object_eq VaultSettings.record members "VaultSettings").trans ?_
  unfold VaultSettings.record
  rw [ofMembers_field_eq (ofMembers_field (ofMembers_make _ _) henabled), fieldOfMembers_eq hkeys rfl]

theorem read_entry_level : LoggingSettings.record.read "LoggingSettings"
      (sectionOf (Function.update s.written .level value) Field.level.owner).toDocument =
    (Document.readString value.toDocument).map LoggingSettings.mk := by
  have hkeys : ([(Field.level.name, value)].map Prod.fst).Nodup := List.nodup_singleton _
  refine (read_object_eq LoggingSettings.record [(Field.level.name, value)] "LoggingSettings").trans ?_
  unfold LoggingSettings.record
  rw [ofMembers_field_eq (ofMembers_make _ _), fieldOfMembers_eq hkeys rfl]

end Entries

/-- **A document with another value at a place is read as that value is read by itself**, beside
settings that are kept. -/
theorem ofValue_document (s : Settings) (value : Json) (site : Site) :
    codec.ofValue (site.document s value) = site.decode s value := by
  cases site with
  | whole part => exact ofValue_whole s value part
  | entry field =>
    rw [Site.document_entry, ofValue_whole]
    cases field with
    | databasePath =>
      show (StorageSettings.record.read "StorageSettings" _).map _ = _
      rw [read_entry_databasePath]
      unfold Site.decode
      cases Document.readOption Document.readString value.toDocument <;> rfl
    | enabled =>
      show (VaultSettings.record.read "VaultSettings" _).map _ = _
      rw [read_entry_enabled]
      unfold Site.decode
      cases Document.readBool value.toDocument <;> rfl
    | autoLockMinutes =>
      show (VaultSettings.record.read "VaultSettings" _).map _ = _
      rw [read_entry_autoLockMinutes]
      unfold Site.decode
      cases Document.readOption Document.readUInt32 value.toDocument <;> rfl
    | level =>
      show (LoggingSettings.record.read "LoggingSettings" _).map _ = _
      rw [read_entry_level]
      unfold Site.decode
      cases Document.readString value.toDocument <;> rfl

/-- **A field outside a place keeps its value.** -/
theorem Site.agrees_of_decode {site : Site} (h : site.decode s value = .ok t) {field : Field}
    (hfield : ¬ site.Covers field) : field.Agrees t s := by
  cases site with
  | whole part =>
    cases part <;> obtain ⟨_, -, rfl⟩ := ok_of_map h <;> cases field <;> first | rfl | exact absurd rfl hfield
  | entry held =>
    cases held <;> obtain ⟨_, -, rfl⟩ := ok_of_map h <;> cases field <;> first | rfl | exact absurd rfl hfield

end Bookmarks.Settings
