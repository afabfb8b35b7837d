import Bookmarks.Proofs.Json.Values
import Bookmarks.Settings.Basic
import Bookmarks.Vault.Flags

/-! # Reading back settings and flags

Settings are written as an object of three objects, one for each section, and every
field is written, with null for what is absent.  Each section is **a record of its own**:
it is read back first, and the settings are read back from their sections.
-/
namespace Bookmarks

open Json Record

theorem Document.readUInt32_ofNat (n : UInt32) : readUInt32 (Json.ofNat n.toNat).toDocument = .ok n := by
  have hfits : (0 : Int) ≤ (n.toNat : Int) ∧ (n.toNat : Int) < 2 ^ 32 := by
    have hlt := n.toNat_lt
    omega
  simp only [Json.ofNat, Json.toDocument, readUInt32]
  rw [if_pos hfits, Int.toNat_natCast, UInt32.ofNat_toNat]

namespace StorageSettings

/-- The members that the section is written with. -/
def members (s : StorageSettings) : List (String × Json) :=
  [("database_path", .ofString? s.databasePath)]

theorem read_toJson (s : StorageSettings) : record.read "StorageSettings" s.toJson.toDocument = .ok s := by
  have hkeys : (s.members.map Prod.fst).Nodup := by simp [members]
  have hrecord : record.ofMembers (toDocumentMembers s.members) = .ok (StorageSettings.mk s.databasePath) :=
    ofMembers_field (ofMembers_make _ _)
      (fieldOfMembers_of_lookup hkeys rfl (Document.readOption_ofString? s.databasePath))
  exact read_object hrecord "StorageSettings"

theorem steady_read : Document.Steady (record.read "StorageSettings") := by
  have hrecord : record.Steady := (steady_make StorageSettings.mk).field Document.steady_readString.readOption
  exact hrecord.read "StorageSettings"

end StorageSettings

namespace VaultSettings

/-- The minutes as they are written. -/
def minutes (s : VaultSettings) : Json :=
  match s.autoLockMinutes with
  | some n => .ofNat n.toNat
  | none => .null

theorem readOption_minutes (s : VaultSettings) :
    Document.readOption Document.readUInt32 s.minutes.toDocument = .ok s.autoLockMinutes := by
  unfold minutes
  cases s.autoLockMinutes with
  | none => rfl
  | some n =>
    have hn := Document.readUInt32_ofNat n
    simp only [Json.ofNat, Json.toDocument] at hn
    simp only [Json.ofNat, Json.toDocument, Document.readOption, hn]
    rfl

theorem whole_minutes (s : VaultSettings) : s.minutes.Whole := by
  unfold minutes
  cases s.autoLockMinutes with
  | none => trivial
  | some n =>
    show Reader.IsWhole n.toNat
    have hlt := n.toNat_lt
    unfold Reader.IsWhole
    omega

theorem unambiguous_minutes (s : VaultSettings) : s.minutes.Unambiguous := by
  unfold minutes
  cases s.autoLockMinutes <;> trivial

/-- The members that the section is written with. -/
def members (s : VaultSettings) : List (String × Json) :=
  [("enabled", .bool s.enabled), ("auto_lock_minutes", s.minutes)]

theorem read_toJson (s : VaultSettings) : record.read "VaultSettings" s.toJson.toDocument = .ok s := by
  have hkeys : (s.members.map Prod.fst).Nodup := by simp [members]
  have hrecord : record.ofMembers (toDocumentMembers s.members) = .ok (VaultSettings.mk s.enabled s.autoLockMinutes) :=
    ofMembers_field (ofMembers_field (ofMembers_make _ _) (fieldOfMembers_of_lookup hkeys rfl rfl))
      (fieldOfMembers_of_lookup hkeys rfl (readOption_minutes s))
  exact read_object hrecord "VaultSettings"

theorem steady_read : Document.Steady (record.read "VaultSettings") := by
  have hrecord : record.Steady :=
    ((steady_make VaultSettings.mk).field Document.steady_readBool).field Document.steady_readUInt32.readOption
  exact hrecord.read "VaultSettings"

end VaultSettings

namespace LoggingSettings

/-- The members that the section is written with. -/
def members (s : LoggingSettings) : List (String × Json) :=
  [("level", .string s.level)]

theorem read_toJson (s : LoggingSettings) : record.read "LoggingSettings" s.toJson.toDocument = .ok s := by
  have hkeys : (s.members.map Prod.fst).Nodup := by simp [members]
  have hrecord : record.ofMembers (toDocumentMembers s.members) = .ok (LoggingSettings.mk s.level) :=
    ofMembers_field (ofMembers_make _ _) (fieldOfMembers_of_lookup hkeys rfl rfl)
  exact read_object hrecord "LoggingSettings"

theorem steady_read : Document.Steady (record.read "LoggingSettings") := by
  have hrecord : record.Steady := (steady_make LoggingSettings.mk).field Document.steady_readString
  exact hrecord.read "LoggingSettings"

end LoggingSettings

namespace Settings

/-- The members that settings are written with. -/
def members (s : Settings) : List (String × Json) :=
  [("storage", s.storage.toJson), ("vault", s.vault.toJson), ("logging", s.logging.toJson)]

theorem record_ofMembers (s : Settings) : record.ofMembers (toDocumentMembers s.members) = .ok s := by
  have hkeys : (s.members.map Prod.fst).Nodup := by simp [members]
  show record.ofMembers _ = .ok (Settings.mk s.storage s.vault s.logging)
  refine ofMembers_field (ofMembers_field (ofMembers_field (ofMembers_make _ _) ?storage) ?vault) ?logging
  case storage => exact fieldOfMembers_of_lookup hkeys rfl s.storage.read_toJson
  case vault => exact fieldOfMembers_of_lookup hkeys rfl s.vault.read_toJson
  case logging => exact fieldOfMembers_of_lookup hkeys rfl s.logging.read_toJson

theorem codec_keeps (s : Settings) : codec.Keeps s where
  whole := by
    refine wholeMembers_iff.mpr ?_
    simp only [List.forall_mem_cons, List.not_mem_nil, false_implies, implies_true, and_true]
    exact ⟨⟨whole_ofString? s.storage.databasePath, trivial⟩, ⟨trivial, s.vault.whole_minutes, trivial⟩,
      ⟨trivial, trivial⟩⟩
  read := read_object (record_ofMembers s) "AppSettings"

/-- **Settings are given back by each of their written forms.** -/
theorem codec_readsBack (s : Settings) : codec.ReadsBack s := by
  have hrecord : record.Steady :=
    (((steady_make Settings.mk).field StorageSettings.steady_read).field VaultSettings.steady_read).field
      LoggingSettings.steady_read
  refine (codec_keeps s).readsBack (hrecord.read "AppSettings") ⟨by simp, unambiguousMembers_iff.mpr ?_⟩
  simp only [List.forall_mem_cons, List.not_mem_nil, false_implies, implies_true, and_true]
  exact ⟨⟨by simp, unambiguous_ofString? s.storage.databasePath, trivial⟩,
    ⟨by simp, trivial, s.vault.unambiguous_minutes, trivial⟩, ⟨by simp, trivial, trivial⟩⟩

end Settings

namespace VaultFlags

/-- The members that flags are written with. -/
def members (f : VaultFlags) : List (String × Json) :=
  [("enabled", .bool f.enabled), ("autoUnlockHint", .bool f.autoUnlockHint)]

theorem record_ofMembers (f : VaultFlags) : record.ofMembers (toDocumentMembers f.members) = .ok f := by
  have hkeys : (f.members.map Prod.fst).Nodup := by simp [members]
  show record.ofMembers _ = .ok (VaultFlags.mk f.enabled f.autoUnlockHint)
  exact ofMembers_field (ofMembers_field (ofMembers_make _ _) (fieldOfMembers_of_lookup hkeys rfl rfl))
    (fieldOfMembers_of_lookup hkeys rfl rfl)

theorem codec_keeps (f : VaultFlags) : codec.Keeps f where
  whole := by simp [codec, toJson, Whole, WholeMembers]
  read := read_object (record_ofMembers f) "VaultFlags"

/-- **Flags are given back by each of their written forms.** -/
theorem codec_readsBack (f : VaultFlags) : codec.ReadsBack f := by
  have hrecord : record.Steady :=
    ((steady_make VaultFlags.mk).field Document.steady_readBool).field Document.steady_readBool
  refine (codec_keeps f).readsBack (hrecord.read "VaultFlags") ?_
  simp [codec, toJson, Unambiguous, UnambiguousMembers]

end VaultFlags

end Bookmarks
