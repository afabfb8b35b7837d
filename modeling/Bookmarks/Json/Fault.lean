import Bookmarks.Json.Document
import Bookmarks.Text.Quoted

/-! # What is wrong with a document

A document can be well formed and still not be what was asked for.  A fault says
in which way, and `Fault.message` puts it into words.
-/
namespace Bookmarks

/-- A way in which a document is not what was asked for. -/
inductive Fault where
  /-- Something else stands where this was expected. -/
  | unexpected (found expected : String)
  /-- A whole number outside the range of its type. -/
  | outOfRange (n : Int) (expected : String)
  /-- A field that has to be there is not. -/
  | missingField (name : String)
  /-- A field is there twice. -/
  | duplicateField (name : String)
  /-- A record given as an array ends before the field with this index. -/
  | tooShort (index : Nat) (record : String) (size : Nat)
  /-- A record given as an array has more items than fields. -/
  | tooLong (length : Nat)
  /-- A number or a string that stands for no value. -/
  | noValue
  deriving DecidableEq, Repr

/-- Whether a document was taken apart from a text or from a value. -/
inductive Origin where
  | text
  | value
  deriving DecidableEq, Repr

namespace Fault

/-- The count of fields a record has, in words. -/
def elementCount (size : Nat) : String :=
  if size = 1 then "1 element" else toString size ++ " elements"

/-- The wording of a fault.  A text that goes on after the last field is found
out by its next character, a value by its length. -/
def message (origin : Origin) : Fault → String
  | .unexpected found expected => "invalid type: " ++ found ++ ", expected " ++ expected
  | .outOfRange n expected => "invalid value: integer `" ++ toString n ++ "`, expected " ++ expected
  | .missingField name => "missing field `" ++ name ++ "`"
  | .duplicateField name => "duplicate field `" ++ name ++ "`"
  | .tooShort index record size =>
    "invalid length " ++ toString index ++ ", expected struct " ++ record ++ " with " ++ elementCount size
  | .tooLong length =>
    match origin with
    | .text => "trailing characters"
    | .value => "invalid length " ++ toString length ++ ", expected fewer elements in array"
  | .noValue => "no value"

end Fault

/-- What a document is, in the words of a message. -/
def Document.found : Document → Option String
  | .null => some "null"
  | .bool b => some ("boolean `" ++ (if b then "true" else "false") ++ "`")
  | .number (some (.integer n)) => some ("integer `" ++ toString n ++ "`")
  | .number (some (.real x)) => some ("floating point `" ++ x.text ++ "`")
  | .number none => none
  | .string (some s) => some ("string " ++ Text.quoted s)
  | .string none => none
  | .array _ => some "sequence"
  | .object _ => some "map"

/-- The fault of a document that stands where something else was expected. -/
def Document.unexpected (d : Document) (expected : String) : Fault :=
  match d.found with
  | some found => .unexpected found expected
  | none => .noValue

end Bookmarks
