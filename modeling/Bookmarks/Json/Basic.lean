import Bookmarks.Decimal.Shortest

/-! # JSON values

A JSON value as it is kept in memory.  A number without fraction and exponent
that fits sixty-four bits is kept exactly; any other one is kept as the double
nearest to it.

The members of an object are a list, because a record is written with its fields
in the order of their declaration.  A value that was read has its members in
the order of their keys instead, **each key once**; `sorted` puts any value into
that form.
-/
namespace Bookmarks

/-- A JSON number: a whole number, or a double. -/
inductive Number where
  | integer (n : Int)
  | real (x : Decimal.Binary64)
  deriving DecidableEq, Repr, Inhabited

/-- A JSON value. -/
inductive Json where
  | null
  | bool (b : Bool)
  | number (n : Number)
  | string (s : String)
  | array (items : List Json)
  | object (members : List (String × Json))
  deriving Repr, Inhabited

namespace Json

/-- A whole number as a value. -/
def ofInt (n : Int) : Json := .number (.integer n)

/-- A count as a value. -/
def ofNat (n : Nat) : Json := .number (.integer n)

/-- A text, or null for none. -/
def ofString? : Option String → Json
  | some s => .string s
  | none => .null

/-- The value of the first member with the key. -/
def lookup (key : String) : List (String × Json) → Option Json
  | [] => none
  | (k, v) :: members => if k = key then some v else lookup key members

/-- The value of a member of an object; other values have none. -/
def get? (key : String) : Json → Option Json
  | .object members => lookup key members
  | _ => none

/-- The text of a string value. -/
def asString? : Json → Option String
  | .string s => some s
  | _ => none

/-- The members of an object. -/
def asObject? : Json → Option (List (String × Json))
  | .object members => some members
  | _ => none

/-! ## The order of keys -/

/-- The members with one more, in the order of keys; a member with the same key
is replaced. -/
def insertMember (key : String) (value : Json) : List (String × Json) → List (String × Json)
  | [] => [(key, value)]
  | (k, v) :: members =>
    if key < k then (key, value) :: (k, v) :: members
    else if key = k then (key, value) :: members
    else (k, v) :: insertMember key value members

/-- The members in the order of keys, the last of several with one key. -/
def sortMembers (members : List (String × Json)) : List (String × Json) :=
  members.foldl (fun sorted m => insertMember m.1 m.2 sorted) []

mutual

/-- The value with the members of every object in the order of their keys. -/
def sorted : Json → Json
  | .array items => .array (sortedItems items)
  | .object members => .object (sortMembers (sortedMembers members))
  | leaf => leaf

/-- `sorted` for every item of an array. -/
def sortedItems : List Json → List Json
  | [] => []
  | x :: items => x.sorted :: sortedItems items

/-- `sorted` for the value of every member. -/
def sortedMembers : List (String × Json) → List (String × Json)
  | [] => []
  | (k, v) :: members => (k, v.sorted) :: sortedMembers members

end

/-- The object with the value of one member replaced, if it has that member. -/
def replaceMember? (key : String) (value : Json) : List (String × Json) → Option (List (String × Json))
  | [] => none
  | (k, v) :: members =>
    if k = key then some ((k, value) :: members)
    else (replaceMember? key value members).map ((k, v) :: ·)

end Json

end Bookmarks
