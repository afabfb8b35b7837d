import Bookmarks.Shelf.Scope

/-! # Collections

A collection is the links and the categories together.  It is *in order* when the
common category is first, every link belongs to a category, the pinned links are
counted from zero, and the links stand as they are shown.  `repair` brings any
collection into order; the operations on collections keep it there.
-/
namespace Bookmarks

/-- Links and their categories. -/
structure Collection where
  links : List Link
  categories : List Category
  deriving DecidableEq, Repr, Inhabited

/-- What a repair had to change. -/
structure Repair where
  collection : Collection
  commonFixed : Bool
  orphansAdopted : Nat
  deriving DecidableEq, Repr

namespace Collection

/-- The links to start with, as id, address, title, category and pinned state. -/
def seedLinks : List (String × String × String × String × Bool) :=
  [("1", "https://github.com", "GitHub", "dev", true),
   ("2", "https://doc.rust-lang.org", "Rust Documentation", "dev", false),
   ("3", "https://crates.io", "crates.io", "dev", false),
   ("4", "https://www.figma.com", "Figma", "design", false),
   ("5", "https://news.ycombinator.com", "Hacker News", "read", false)]

/-- The link for a row of the seed, in its place. -/
def seedLink (index : Nat) : String × String × String × String × Bool → Link
  | (id, url, title, categoryId, pinned) =>
    { id, url, title, description := none, categoryId, icon := none, pinned, order := some index
      pinnedOrder := if pinned then some 0 else none, createdAt := 0 }

/-- What a collection holds while nothing has been kept yet. -/
def seed : Collection where
  links := seedLinks.mapIdx seedLink
  categories := Category.defaults

/-- Brings a collection into order. -/
def repair (c : Collection) : Repair :=
  let given := if c.categories.isEmpty then Category.defaults else c.categories
  let categories := Category.withCommonFirst given
  { collection :=
      { links := Shelf.sort (Shelf.compactPins (Shelf.adoptOrphans categories c.links)), categories }
    commonFixed := categories != given
    orphansAdopted := Shelf.orphanCount categories c.links }

/-! ## Deleting a category -/

/-- Why a category cannot be deleted. -/
inductive Undeletable where
  | isCommon
  | unknown (id : String)
  deriving DecidableEq, Repr

/-- A link of a category that goes away, in the common one. -/
def moveOut (deletedId : String) (l : Link) : Link :=
  if l.categoryId = deletedId then { l with categoryId := Category.commonId } else l

/-- The collection without a category, whose links move to the common one. -/
def deleteCategory (c : Collection) (id : String) : Except Undeletable Collection :=
  if id = Category.commonId then .error .isCommon
  else if !Category.isKnown c.categories id then .error (.unknown id)
  else .ok
    { links := c.links.map (moveOut id)
      categories := Category.withCommonFirst (c.categories.filter (·.id != id)) }

/-! ## Written form -/

/-- A collection as JSON. -/
def toJson (c : Collection) : Json :=
  .object [("links", Link.codec.list.encode c.links), ("categories", Category.codec.list.encode c.categories)]

/-- How a collection is read. -/
def record : Record Collection :=
  Record.make Collection.mk
    |>.field "links" Link.codec.list.read (.means [])
    |>.field "categories" Category.codec.list.read (.means [])

/-- The codec of collections. -/
def codec : Codec Collection where
  encode := toJson
  read := record.read "DataSnapshot"

end Collection

end Bookmarks
