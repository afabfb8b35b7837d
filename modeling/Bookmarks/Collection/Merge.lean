import Bookmarks.Collection.Basic

/-! # Merging

Links and categories from elsewhere are merged into a collection.  Nothing of the
collection is lost; a link that comes in under an id that is taken gets a fresh
one, and its pin ranks after all pins that are there already.

A category that comes in is taken in unless its id is there already, or a
category of the same name is: then the links that name it follow that one.
-/
namespace Bookmarks.Collection

/-- The categories so far, and which ids stand for which of them. -/
structure Admission where
  categories : List Category
  aliases : List (String × String)
  added : Nat
  deriving DecidableEq, Repr

namespace Admission

/-- Takes one category in. -/
def takeIn (a : Admission) (c : Category) : Admission :=
  if Category.isKnown a.categories c.id then a
  else
    match a.categories.find? (·.name == c.name) with
    | some same => { a with aliases := (c.id, same.id) :: a.aliases }
    | none => { a with categories := a.categories ++ [c], added := a.added + 1 }

/-- Takes categories in, one after the other. -/
def takeInAll (existing incoming : List Category) : Admission :=
  incoming.foldl takeIn ⟨Category.withCommonFirst existing, [], 0⟩

/-- The link in the category that its own one stands for. -/
def redirect (a : Admission) (l : Link) : Link :=
  match a.aliases.lookup l.categoryId with
  | some id => { l with categoryId := id }
  | none => l

end Admission

/-- Gives every link whose id is empty or taken the next fresh id, where `used`
fresh ids are spent already; answers the links and the fresh ids spent at the
end. -/
def claimIds (fresh : Nat → String) (used : Nat) (taken : List String) : List Link → List Link × Nat
  | [] => ([], used)
  | l :: links =>
    if taken.contains l.id || l.id == "" then
      let id := fresh used
      let r := claimIds fresh (used + 1) (id :: taken) links
      ({ l with id } :: r.1, r.2)
    else
      let r := claimIds fresh used (l.id :: taken) links
      (l :: r.1, r.2)

/-- The links with the pinned ones counted from `offset`. -/
def rankPinsFrom (offset : Nat) (links : List Link) : List Link :=
  Sequence.renumber (fun k l => Shelf.withPinnedOrder (offset + k) l) (Shelf.pinnedPlaces links) links

/-- What a merge has done. -/
structure Merged where
  collection : Collection
  categoriesAdded : Nat
  linksAdded : Nat
  idsReassigned : Nat
  deriving DecidableEq, Repr

/-- The collection with links and categories from elsewhere; `fresh` supplies the
ids that are needed. -/
def merge (fresh : Nat → String) (c : Collection) (links : List Link) (categories : List Category) : Merged :=
  let admission := Admission.takeInAll c.categories categories
  let existing := Shelf.compactPins c.links
  let claimed := claimIds fresh 0 (existing.map (·.id)) links
  let incoming := rankPinsFrom (Shelf.pinnedCount existing) (claimed.1.map admission.redirect)
  { collection :=
      { links := Shelf.sort (Shelf.compactPins (Shelf.adoptOrphans admission.categories (existing ++ incoming)))
        categories := admission.categories }
    categoriesAdded := admission.added
    linksAdded := links.length
    idsReassigned := claimed.2 }

end Bookmarks.Collection
