import Bookmarks.Json.Codec
import Bookmarks.Storage

/-! # The image of a storage

A storage that is kept is one text on the disk, its image.  The image says how the
storage is changed, and holds a member for every key, unless the table has not been
made yet.  What the storage refuses and what was tried is not part of it.
-/
namespace Bookmarks

/-- How changes reach a storage safely. -/
inductive Journal where
  /-- What was there before is written to a journal first. -/
  | before
  /-- What is to be there is written to a log first. -/
  | ahead
  deriving DecidableEq, Repr

/-- What is kept of a storage. -/
structure Image where
  journal : Journal
  entries : Option (List (String × String))
  deriving DecidableEq, Repr

namespace Journal

/-- The word for a way to change a storage. -/
def text : Journal → String
  | .before => "before"
  | .ahead => "ahead"

/-- The way to change a storage that a word stands for. -/
def ofText? : String → Option Journal
  | "before" => some .before
  | "ahead" => some .ahead
  | _ => none

end Journal

namespace Image

/-- The first line of an image. -/
def heading : String := "storage\n"

/-- An image in which nothing has been made yet. -/
def blank : Image := ⟨.before, none⟩

/-- The text under a key, as a member. -/
def member (entry : String × String) : String × Json :=
  (entry.1, .string entry.2)

/-- The table as a value. -/
def tableJson : Option (List (String × String)) → Json
  | some entries => .object (entries.map member)
  | none => .null

/-- The text of an image. -/
def text (image : Image) : String :=
  heading ++ (Json.object [("entries", tableJson image.entries), ("journal", .string image.journal.text)]).compact

/-- The entry that a member stands for. -/
def memberEntry? (member : String × Json) : Option (String × String) :=
  member.2.asString?.map fun text => (member.1, text)

/-- The table of a value. -/
def table? : Json → Option (Option (List (String × String)))
  | .null => some none
  | json => do
    let members ← json.asObject?
    return some (← members.mapM memberEntry?)

/-- The image that a text is.  An empty text is one in which nothing has been made. -/
def ofText? (text : String) : Option Image :=
  if text = "" then some blank
  else if !heading.toList.isPrefixOf text.toList then none
  else do
    let json ← Json.ofText? (String.ofList (text.toList.drop heading.length))
    let journal ← Journal.ofText? (← (← json.get? "journal").asString?)
    let entries ← table? (← json.get? "entries")
    return ⟨journal, entries⟩

end Image

namespace Storage

/-- A storage with a table, as one that has just been opened. -/
def ofEntries (entries : List (String × String)) (refusesWrites : Bool) : Storage :=
  { empty with entries, refusesWrites }

end Storage

end Bookmarks
