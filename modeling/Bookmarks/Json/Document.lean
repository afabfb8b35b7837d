import Bookmarks.Json.Basic

/-! # Documents

A document is a JSON text taken apart, with everything still in the order in
which it stands there: members with their duplicates, and leaves that may stand
for no value at all.  A number can be too large for a double and a string can
hold half a surrogate pair or a stray byte; the text is well formed all the same,
and it only matters where somebody asks for that leaf.

`value?` asks for all of them and also bounds the nesting; it answers the value
the document stands for.
-/
namespace Bookmarks

/-- A JSON text taken apart. -/
inductive Document where
  | null
  | bool (b : Bool)
  | number (n : Option Number)
  | string (s : Option String)
  | array (items : List Document)
  | object (members : List (Option String × Document))
  deriving Repr, Inhabited

namespace Document

/-- How many arrays and objects may stand inside one another. -/
def maxDepth : Nat := 127

mutual

/-- The value a document stands for, if it nests no more than `depth` deep. -/
def valueWithin : Nat → Document → Option Json
  | _, .null => some .null
  | _, .bool b => some (.bool b)
  | _, .number n => n.map .number
  | _, .string s => s.map .string
  | depth, .array items =>
    if depth = 0 then none else (itemsWithin (depth - 1) items).map .array
  | depth, .object members =>
    if depth = 0 then none
    else (membersWithin (depth - 1) members).map fun ms => .object (Json.sortMembers ms)

/-- The values of the items of an array. -/
def itemsWithin : Nat → List Document → Option (List Json)
  | _, [] => some []
  | depth, x :: items =>
    match valueWithin depth x, itemsWithin depth items with
    | some v, some vs => some (v :: vs)
    | _, _ => none

/-- The keys and values of the members of an object. -/
def membersWithin : Nat → List (Option String × Document) → Option (List (String × Json))
  | _, [] => some []
  | depth, (key, x) :: members =>
    match key, valueWithin depth x, membersWithin depth members with
    | some k, some v, some ms => some ((k, v) :: ms)
    | _, _, _ => none

end

/-- The value a document stands for, with the last of several members of one
key. -/
def value? (d : Document) : Option Json :=
  valueWithin maxDepth d

end Document

namespace Json

mutual

/-- The document that a value would be read from. -/
def toDocument : Json → Document
  | .null => .null
  | .bool b => .bool b
  | .number n => .number (some n)
  | .string s => .string (some s)
  | .array items => .array (toDocuments items)
  | .object members => .object (toDocumentMembers members)

/-- The documents of the items of an array. -/
def toDocuments : List Json → List Document
  | [] => []
  | x :: items => x.toDocument :: toDocuments items

/-- The members of an object as they would be read. -/
def toDocumentMembers : List (String × Json) → List (Option String × Document)
  | [] => []
  | (k, v) :: members => (some k, v.toDocument) :: toDocumentMembers members

end

end Json

end Bookmarks
