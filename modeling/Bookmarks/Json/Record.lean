import Bookmarks.Json.Fault

/-! # Reading records

A record may be given as an object, with its fields in any order, or as an array,
with its fields in the order of their declaration.  Reading goes through the
document once, so of several faults **the one that stands first is reported**;
fields that are missing are noticed at the end, in the order of declaration.

`Record α` describes how to read an `α` in both forms.  It is built field by
field from the constructor of `α`, and every field says what its absence means.
-/
namespace Bookmarks

/-- A fault, with the number of parts of the document that stand before it. -/
structure Stop where
  position : Nat
  fault : Fault
  deriving DecidableEq, Repr

/-- What the absence of a field means in an object, and at the end of an array. -/
structure Absence (α : Type) where
  inObject : Option α
  inArray : Option α

namespace Absence

/-- The field has to be there. -/
def refused {α : Type} : Absence α := ⟨none, none⟩

/-- The field may be left out and then has this value. -/
def means {α : Type} (a : α) : Absence α := ⟨some a, some a⟩

/-- The field may be left out of an object and then has this value. -/
def inObjectMeans {α : Type} (a : α) : Absence α := ⟨some a, none⟩

end Absence

/-- The members of an object as they stand in a document. -/
abbrev Members := List (Option String × Document)

/-- How to read a record, as an object and as an array. -/
structure Record (α : Type) where
  /-- The number of fields. -/
  size : Nat
  /-- Reads the fields from the members of an object. -/
  ofMembers : Members → Except Stop α
  /-- Reads the fields from the items of an array, where the first field has this
  index; the function gives the fault of an array that ends before an index. -/
  ofItems : (Nat → Fault) → Nat → List Document → Except Stop α

/-- Two outcomes together; of two stops the one that comes first. -/
def Stop.both {α β : Type} (f : Except Stop (α → β)) (x : Except Stop α) : Except Stop β :=
  match f, x with
  | .ok f, .ok x => .ok (f x)
  | .error s, .ok _ => .error s
  | .ok _, .error s => .error s
  | .error s, .error t => .error (if t.position < s.position then t else s)

namespace Record

/-- The documents that members with a name hold, with their positions. -/
def occurrencesFrom (name : String) (position : Nat) : Members → List (Nat × Document)
  | [] => []
  | (key, d) :: members =>
    if key = some name then (position, d) :: occurrencesFrom name (position + 1) members
    else occurrencesFrom name (position + 1) members

/-- A field read from the members of an object. -/
def fieldOfMembers {α : Type} (name : String) (read : Document → Except Fault α) (absence : Absence α)
    (members : Members) : Except Stop α :=
  match occurrencesFrom name 0 members with
  | [] =>
    match absence.inObject with
    | some a => .ok a
    | none => .error ⟨members.length, .missingField name⟩
  | (position, d) :: further =>
    match read d, further with
    | .error fault, _ => .error ⟨position, fault⟩
    | .ok a, [] => .ok a
    | .ok _, (position, _) :: _ => .error ⟨position, .duplicateField name⟩

/-- A field read from the items of an array. -/
def fieldOfItems {α : Type} (read : Document → Except Fault α) (absence : Absence α)
    (short : Nat → Fault) (index : Nat) (items : List Document) : Except Stop α :=
  match items[index]? with
  | some d =>
    match read d with
    | .ok a => .ok a
    | .error fault => .error ⟨index, fault⟩
  | none =>
    match absence.inArray with
    | some a => .ok a
    | none => .error ⟨index, short index⟩

/-- A record without fields yet. -/
def make {α : Type} (a : α) : Record α where
  size := 0
  ofMembers _ := .ok a
  ofItems _ _ _ := .ok a

/-- The record with one more field. -/
def field {α β : Type} (r : Record (α → β)) (name : String) (read : Document → Except Fault α)
    (absence : Absence α) : Record β where
  size := r.size + 1
  ofMembers members := Stop.both (r.ofMembers members) (fieldOfMembers name read absence members)
  ofItems short index items :=
    Stop.both (r.ofItems short index items) (fieldOfItems read absence short (index + r.size) items)

/-- The position of the first member whose key stands for no text. -/
def firstUnreadableKey : Members → Option Nat
  | members => members.findIdx? (·.1.isNone)

/-- Reads a record with a name from an object or an array. -/
def read {α : Type} (r : Record α) (name : String) (d : Document) : Except Fault α :=
  match d with
  | .object members =>
    match r.ofMembers members, firstUnreadableKey members with
    | .ok a, none => .ok a
    | .ok _, some _ => .error .noValue
    | .error stop, none => .error stop.fault
    | .error stop, some position => .error (if position < stop.position then .noValue else stop.fault)
  | .array items =>
    match r.ofItems (fun index => .tooShort index name r.size) 0 items with
    | .ok a => if r.size < items.length then .error (.tooLong items.length) else .ok a
    | .error stop => .error stop.fault
  | d => .error (d.unexpected ("struct " ++ name))

end Record

/-! ## Reading the parts -/

namespace Document

/-- Reads a text. -/
def readString : Document → Except Fault String
  | .string (some s) => .ok s
  | d => .error (d.unexpected "a string")

/-- Reads a truth value. -/
def readBool : Document → Except Fault Bool
  | .bool b => .ok b
  | d => .error (d.unexpected "a boolean")

/-- Reads a whole number of sixty-four bits with a sign. -/
def readInt64 : Document → Except Fault Int
  | .number (some (.integer n)) =>
    if -(2 ^ 63 : Int) ≤ n ∧ n < 2 ^ 63 then .ok n else .error (.outOfRange n "i64")
  | d => .error (d.unexpected "i64")

/-- Reads a whole number of thirty-two bits without a sign. -/
def readUInt32 : Document → Except Fault UInt32
  | .number (some (.integer n)) =>
    if 0 ≤ n ∧ n < 2 ^ 32 then .ok (UInt32.ofNat n.toNat) else .error (.outOfRange n "u32")
  | d => .error (d.unexpected "u32")

/-- Reads something that null may stand for the absence of. -/
def readOption {α : Type} (read : Document → Except Fault α) : Document → Except Fault (Option α)
  | .null => .ok none
  | d => (read d).map some

/-- Reads the items of an array, up to the first that is faulty. -/
def readItems {α : Type} (read : Document → Except Fault α) : List Document → Except Fault (List α)
  | [] => .ok []
  | d :: items =>
    match read d with
    | .error fault => .error fault
    | .ok a => (readItems read items).map (a :: ·)

/-- Reads an array. -/
def readList {α : Type} (read : Document → Except Fault α) : Document → Except Fault (List α)
  | .array items => readItems read items
  | d => .error (d.unexpected "a sequence")

end Document

end Bookmarks
