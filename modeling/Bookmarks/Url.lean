import Bookmarks.Text.Blank

/-! # Addresses

An address is stored trimmed and with a scheme.  An address without one is taken
to be meant for `https`.
-/
namespace Bookmarks.Url

/-- The schemes an address may start with. -/
def schemes : List (List Char) :=
  ["http://".toList, "https://".toList]

/-- Whether an address starts with one of the schemes. -/
def hasScheme (cs : List Char) : Bool :=
  schemes.any fun scheme => scheme.isPrefixOf cs

/-- The address as it is stored, unless it is blank. -/
def normalize (raw : String) : Option String :=
  let cs := Text.trimChars raw.toList
  if cs.isEmpty then none
  else if hasScheme cs then some (String.ofList cs)
  else some (String.ofList ("https://".toList ++ cs))

/-- An address in the form in which it is stored. -/
def IsNormal (url : String) : Prop :=
  normalize url = some url

instance (url : String) : Decidable (IsNormal url) :=
  inferInstanceAs (Decidable (normalize url = some url))

end Bookmarks.Url
