import Bookmarks.Link.Basic
import Bookmarks.Url

/-! # Drafts and updates

A draft is what somebody asks to be kept; an update is what somebody asks to be
changed.  A field that is absent from an update keeps its value, and an empty
description or icon takes the old one away.

Addresses and titles are checked here, once for every place where they can come
in: neither may be blank.
-/
namespace Bookmarks

/-- What a new link is to hold. -/
structure Draft where
  url : String
  title : String
  description : Option String
  categoryId : Option String
  icon : Option String
  pinned : Bool
  deriving DecidableEq, Repr, Inhabited

/-- What is to change about a link. -/
structure Update where
  id : String
  url : Option String
  title : Option String
  description : Option String
  categoryId : Option String
  icon : Option String
  pinned : Option Bool
  deriving DecidableEq, Repr, Inhabited

/-- Why a link cannot be kept as it was asked for. -/
inductive InvalidLink where
  | blankUrl
  | blankTitle
  deriving DecidableEq, Repr

/-- The wording of the reason. -/
def InvalidLink.message : InvalidLink → String
  | .blankUrl => "url must not be empty"
  | .blankTitle => "title must not be empty"

/-- The address in its stored form. -/
def acceptUrl (url : String) : Except InvalidLink String :=
  match Url.normalize url with
  | some url => .ok url
  | none => .error .blankUrl

/-- The title in its stored form. -/
def acceptTitle (title : String) : Except InvalidLink String :=
  let trimmed := Text.trim title
  if trimmed = "" then .error .blankTitle else .ok trimmed

/-- A text that is not empty. -/
def nonEmpty (s : String) : Option String :=
  if s = "" then none else some s

namespace Draft

/-- The link for a draft, in a category and without ranks. -/
def toLink (d : Draft) (id : String) (now : Int) (categoryId : String) : Except InvalidLink Link := do
  let url ← acceptUrl d.url
  let title ← acceptTitle d.title
  return {
    id, url, title
    description := d.description.bind nonEmpty
    categoryId
    icon := d.icon.bind nonEmpty
    pinned := d.pinned
    order := none
    pinnedOrder := none
    createdAt := now }

/-- A draft as JSON. -/
def toJson (d : Draft) : Json :=
  .object [("url", .string d.url), ("title", .string d.title),
    ("description", .ofString? d.description), ("categoryId", .ofString? d.categoryId),
    ("icon", .ofString? d.icon), ("pinned", .bool d.pinned)]

/-- How a draft is read. -/
def record : Record Draft :=
  Record.make Draft.mk
    |>.field "url" Document.readString .refused
    |>.field "title" Document.readString .refused
    |>.field "description" (Document.readOption Document.readString) (.means none)
    |>.field "categoryId" (Document.readOption Document.readString) (.means none)
    |>.field "icon" (Document.readOption Document.readString) (.means none)
    |>.field "pinned" Document.readBool (.means false)

/-- The codec of drafts. -/
def codec : Codec Draft where
  encode := toJson
  read := record.read "LinkDraft"

end Draft

namespace Update

/-- The field after an update that may replace or remove it. -/
def replaced (given : Option String) (old : Option String) : Option String :=
  match given with
  | some s => nonEmpty s
  | none => old

/-- Whether the update asks for the other state of being pinned. -/
def changesPin (u : Update) (l : Link) : Bool :=
  match u.pinned with
  | some p => p != l.pinned
  | none => false

/-- An update as JSON. -/
def toJson (u : Update) : Json :=
  .object [("id", .string u.id), ("url", .ofString? u.url), ("title", .ofString? u.title),
    ("description", .ofString? u.description), ("categoryId", .ofString? u.categoryId),
    ("icon", .ofString? u.icon), ("pinned", match u.pinned with | some p => .bool p | none => .null)]

/-- How an update is read. -/
def record : Record Update :=
  Record.make Update.mk
    |>.field "id" Document.readString .refused
    |>.field "url" (Document.readOption Document.readString) (.means none)
    |>.field "title" (Document.readOption Document.readString) (.means none)
    |>.field "description" (Document.readOption Document.readString) (.means none)
    |>.field "categoryId" (Document.readOption Document.readString) (.means none)
    |>.field "icon" (Document.readOption Document.readString) (.means none)
    |>.field "pinned" (Document.readOption Document.readBool) (.means none)

/-- The codec of updates. -/
def codec : Codec Update where
  encode := toJson
  read := record.read "LinkUpdate"

end Update

end Bookmarks
