import Bookmarks.Link.Edit
import Bookmarks.Shelf.Scope

/-! # Commands on links

The commands that the open collection and the private vault have in common: each
takes a shelf to a new shelf, or says why it cannot.
-/
namespace Bookmarks

/-- Why a command on links cannot be carried out. -/
inductive LinkError where
  | notFound (id : String)
  | invalid (reason : InvalidLink)
  deriving DecidableEq, Repr

namespace Shelf

/-- The links with one made from a draft. -/
def add (links : Shelf) (draft : Draft) (id : String) (now : Int) (categoryId : String) :
    Except LinkError Shelf :=
  match draft.toLink id now categoryId with
  | .ok l => .ok (insert links l)
  | .error reason => .error (.invalid reason)

/-- The links with one link edited, and pinned or unpinned if the update says
so. -/
def update (links : Shelf) (u : Update) (edit : Link → Except InvalidLink Link) : Except LinkError Shelf :=
  match links.find? (·.id == u.id) with
  | none => .error (.notFound u.id)
  | some l =>
    match edit l with
    | .error reason => .error (.invalid reason)
    | .ok edited =>
      let next := (Sequence.modifyFirst? (·.id == u.id) (fun _ => edited) links).getD links
      if u.changesPin l then .ok ((togglePin? next u.id).getD next) else .ok next

/-- The links without one link. -/
def delete (links : Shelf) (id : String) : Except LinkError Shelf :=
  match remove? links id with
  | some next => .ok next
  | none => .error (.notFound id)

/-- The links with one link pinned or unpinned. -/
def togglePin (links : Shelf) (id : String) : Except LinkError Shelf :=
  match togglePin? links id with
  | some next => .ok next
  | none => .error (.notFound id)

end Shelf

end Bookmarks
