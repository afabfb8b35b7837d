import Bookmarks.Link.Edit
import Bookmarks.Proofs.Json.Values

/-! # Reading back drafts and updates

Drafts and updates come in from a host, and their fields may be left out.  Written,
they have all of their fields, with **null for what is absent**; null is read back as
absent, and so is told apart from an empty text.
-/
namespace Bookmarks

open Json Record

namespace Draft

/-- The members that a draft is written with. -/
def members (d : Draft) : List (String × Json) :=
  [("url", .string d.url), ("title", .string d.title), ("description", .ofString? d.description),
    ("categoryId", .ofString? d.categoryId), ("icon", .ofString? d.icon), ("pinned", .bool d.pinned)]

theorem record_ofMembers (d : Draft) : record.ofMembers (toDocumentMembers d.members) = .ok d := by
  have hkeys : (d.members.map Prod.fst).Nodup := by simp [members]
  show record.ofMembers _ = .ok (Draft.mk d.url d.title d.description d.categoryId d.icon d.pinned)
  refine ofMembers_field (ofMembers_field (ofMembers_field (ofMembers_field (ofMembers_field (ofMembers_field
    (ofMembers_make _ _) ?url) ?title) ?description) ?categoryId) ?icon) ?pinned
  case url => exact fieldOfMembers_of_lookup hkeys rfl rfl
  case title => exact fieldOfMembers_of_lookup hkeys rfl rfl
  case description => exact fieldOfMembers_of_lookup hkeys rfl (Document.readOption_ofString? d.description)
  case categoryId => exact fieldOfMembers_of_lookup hkeys rfl (Document.readOption_ofString? d.categoryId)
  case icon => exact fieldOfMembers_of_lookup hkeys rfl (Document.readOption_ofString? d.icon)
  case pinned => exact fieldOfMembers_of_lookup hkeys rfl rfl

theorem codec_keeps (d : Draft) : codec.Keeps d where
  whole := by simp [codec, toJson, Whole, WholeMembers, whole_ofString?]
  read := read_object (record_ofMembers d) "LinkDraft"

/-- **A draft is given back by each of its written forms.** -/
theorem codec_readsBack (d : Draft) : codec.ReadsBack d := by
  open Document in
  have hrecord : record.Steady :=
    ((((((steady_make Draft.mk).field steady_readString).field steady_readString).field
      steady_readString.readOption).field steady_readString.readOption).field steady_readString.readOption).field
      steady_readBool
  refine (codec_keeps d).readsBack (hrecord.read "LinkDraft") ?_
  simp [codec, toJson, Unambiguous, UnambiguousMembers, unambiguous_ofString?]

end Draft

namespace Update

/-- The members that an update is written with. -/
def members (u : Update) : List (String × Json) :=
  [("id", .string u.id), ("url", .ofString? u.url), ("title", .ofString? u.title),
    ("description", .ofString? u.description), ("categoryId", .ofString? u.categoryId),
    ("icon", .ofString? u.icon), ("pinned", match u.pinned with | some p => .bool p | none => .null)]

theorem record_ofMembers (u : Update) : record.ofMembers (toDocumentMembers u.members) = .ok u := by
  have hkeys : (u.members.map Prod.fst).Nodup := by simp [members]
  show record.ofMembers _ = .ok (Update.mk u.id u.url u.title u.description u.categoryId u.icon u.pinned)
  refine ofMembers_field (ofMembers_field (ofMembers_field (ofMembers_field (ofMembers_field (ofMembers_field
    (ofMembers_field (ofMembers_make _ _) ?id) ?url) ?title) ?description) ?categoryId) ?icon) ?pinned
  case id => exact fieldOfMembers_of_lookup hkeys rfl rfl
  case url => exact fieldOfMembers_of_lookup hkeys rfl (Document.readOption_ofString? u.url)
  case title => exact fieldOfMembers_of_lookup hkeys rfl (Document.readOption_ofString? u.title)
  case description => exact fieldOfMembers_of_lookup hkeys rfl (Document.readOption_ofString? u.description)
  case categoryId => exact fieldOfMembers_of_lookup hkeys rfl (Document.readOption_ofString? u.categoryId)
  case icon => exact fieldOfMembers_of_lookup hkeys rfl (Document.readOption_ofString? u.icon)
  case pinned =>
    refine fieldOfMembers_of_lookup hkeys rfl ?_
    cases u.pinned <;> rfl

theorem codec_keeps (u : Update) : codec.Keeps u where
  whole := by cases h : u.pinned <;> simp [codec, toJson, Whole, WholeMembers, whole_ofString?, h]
  read := read_object (record_ofMembers u) "LinkUpdate"

/-- **An update is given back by each of its written forms.** -/
theorem codec_readsBack (u : Update) : codec.ReadsBack u := by
  open Document in
  have hrecord : record.Steady :=
    (((((((steady_make Update.mk).field steady_readString).field steady_readString.readOption).field
      steady_readString.readOption).field steady_readString.readOption).field steady_readString.readOption).field
      steady_readString.readOption).field steady_readBool.readOption
  refine (codec_keeps u).readsBack (hrecord.read "LinkUpdate") ?_
  cases h : u.pinned <;> simp [codec, toJson, Unambiguous, UnambiguousMembers, unambiguous_ofString?, h]

end Update

end Bookmarks
