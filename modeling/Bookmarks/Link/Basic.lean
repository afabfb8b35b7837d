import Bookmarks.Json.Codec

/-! # Links

A link is a titled address in a category.  Unpinned links stand in the order of
their `order`, or of the time they were created at while they have none; pinned
links stand before them in the order of their `pinnedOrder`.

Ranks and times are whole numbers of sixty-four bits with a sign when they are
stored; `Link.Storable` says that they are.
-/
namespace Bookmarks

/-- A bookmark. -/
structure Link where
  id : String
  url : String
  title : String
  description : Option String
  categoryId : String
  icon : Option String
  pinned : Bool
  order : Option Int
  pinnedOrder : Option Int
  createdAt : Int
  deriving DecidableEq, Repr, Inhabited

/-- The greatest rank that can be stored. -/
def maxRank : Int := 2 ^ 63 - 1

/-- The least rank that can be stored. -/
def minRank : Int := -(2 ^ 63)

/-- Whether a rank or a time can be stored. -/
def IsRank (n : Int) : Prop := minRank ≤ n ∧ n ≤ maxRank

instance (n : Int) : Decidable (IsRank n) :=
  inferInstanceAs (Decidable (minRank ≤ n ∧ n ≤ maxRank))

namespace Link

/-- The rank among unpinned links: the order, or the time of creation. -/
def orderKey (l : Link) : Int :=
  l.order.getD l.createdAt

/-- A link whose ranks and time can be stored. -/
def Storable (l : Link) : Prop :=
  (∀ n ∈ l.order, IsRank n) ∧ (∀ n ∈ l.pinnedOrder, IsRank n) ∧ IsRank l.createdAt

/-! ## Written form -/

/-- A field that is left out when there is nothing to write. -/
def optionalMember (name : String) : Option Json → List (String × Json)
  | some v => [(name, v)]
  | none => []

/-- A link as JSON. -/
def toJson (l : Link) : Json :=
  .object <|
    [("id", .string l.id), ("url", .string l.url), ("title", .string l.title)] ++
    optionalMember "description" (l.description.map .string) ++
    [("categoryId", .string l.categoryId)] ++
    optionalMember "icon" (l.icon.map .string) ++
    [("pinned", .bool l.pinned)] ++
    optionalMember "order" (l.order.map .ofInt) ++
    optionalMember "pinnedOrder" (l.pinnedOrder.map .ofInt) ++
    [("createdAt", .ofInt l.createdAt)]

/-- How a link is read. -/
def record : Record Link :=
  Record.make Link.mk
    |>.field "id" Document.readString .refused
    |>.field "url" Document.readString .refused
    |>.field "title" Document.readString .refused
    |>.field "description" (Document.readOption Document.readString) (.means none)
    |>.field "categoryId" Document.readString .refused
    |>.field "icon" (Document.readOption Document.readString) (.means none)
    |>.field "pinned" Document.readBool (.means false)
    |>.field "order" (Document.readOption Document.readInt64) (.means none)
    |>.field "pinnedOrder" (Document.readOption Document.readInt64) (.means none)
    |>.field "createdAt" Document.readInt64 (.means 0)

/-- The codec of links. -/
def codec : Codec Link where
  encode := toJson
  read := record.read "Link"

end Link

end Bookmarks
