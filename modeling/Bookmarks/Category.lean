import Bookmarks.Json.Codec

/-! # Categories

Links are sorted into categories.  One category is always there and always
first: `common`, which takes in the links of a category that is deleted and every
link whose category is unknown.  A list of categories in that form is *headed*;
`withCommonFirst` brings any list into it.
-/
namespace Bookmarks

/-- A category of links. -/
structure Category where
  id : String
  name : String
  icon : String
  deriving DecidableEq, Repr, Inhabited

namespace Category

/-- The id of the category that is always there. -/
def commonId : String := "common"

/-- The id that stands for every category at once. -/
def allId : String := "all"

/-- The category of every private link. -/
def privateId : String := "private"

/-- The category that is always there, as it is when nothing else is known. -/
def common : Category := ⟨commonId, "Common", "Star"⟩

/-- The categories to start with. -/
def defaults : List Category :=
  [common, ⟨"dev", "Development", "Code"⟩, ⟨"design", "Design", "Palette"⟩, ⟨"read", "Reading", "BookOpen"⟩]

/-- Whether an id is that of a category. -/
def isKnown (categories : List Category) (id : String) : Bool :=
  categories.any fun c => c.id == id

/-- The category asked for, or the common one if it is unknown. -/
def resolve (categories : List Category) : Option String → String
  | some id => if isKnown categories id then id else commonId
  | none => commonId

/-- The categories with the common one first and no other of its id. -/
def withCommonFirst (categories : List Category) : List Category :=
  (categories.find? (·.id == commonId)).getD common :: categories.filter (·.id != commonId)

/-- A category as JSON. -/
def toJson (c : Category) : Json :=
  .object [("id", .string c.id), ("name", .string c.name), ("icon", .string c.icon)]

/-- How a category is read. -/
def record : Record Category :=
  Record.make Category.mk
    |>.field "id" Document.readString .refused
    |>.field "name" Document.readString .refused
    |>.field "icon" Document.readString (.means "")

/-- The codec of categories. -/
def codec : Codec Category where
  encode := toJson
  read := record.read "Category"

end Category

end Bookmarks
