import Bookmarks.Json.Basic
import Bookmarks.Text.Blank
import Bookmarks.Text.Fields

/-! # Paths into a document

A key such as `vault.enabled` names a place in a JSON document by the members on
the way to it.  A value can be put only where there is a member already: nothing
is ever added.
-/
namespace Bookmarks

/-- Why a value cannot be put at a place. -/
inductive PathFault where
  /-- There is no such member on the way. -/
  | notFound
  /-- The way ends at something that has no members. -/
  | notAnObject
  deriving DecidableEq, Repr

/-- The members on the way to a place, and the member that is the place. -/
structure Path where
  parents : List String
  leaf : String
  deriving DecidableEq, Repr

namespace Path

/-- The path that a key names. -/
def ofKey (key : String) : Path :=
  let segments := Text.fields '.' key
  ⟨segments.dropLast, segments.getLastD ""⟩

/-- The document with a value put at the end of the way through `parents`. -/
def replaceBelow (leaf : String) (value : Json) : List String → Json → Except PathFault Json
  | [], .object members =>
    match Json.replaceMember? leaf value members with
    | some members => .ok (.object members)
    | none => .error .notFound
  | [], _ => .error .notAnObject
  | segment :: parents, document =>
    match document with
    | .object members =>
      match Json.lookup segment members with
      | none => .error .notFound
      | some child =>
        match replaceBelow leaf value parents child with
        | .error fault => .error fault
        | .ok child =>
          match Json.replaceMember? segment child members with
          | some members => .ok (.object members)
          | none => .error .notFound
    | _ => .error .notFound

/-- The document with a value put at the place. -/
def replace (p : Path) (value document : Json) : Except PathFault Json :=
  replaceBelow p.leaf value p.parents document

end Path

end Bookmarks
