import Bookmarks.Shelf.Basic

/-! # Scopes

A scope is the part of a shelf that is shown together and can be put in another
order by hand: the unpinned links of one category, all unpinned links, or the
pinned ones.
-/
namespace Bookmarks

/-- A part of a shelf that is shown together. -/
inductive Scope where
  | category (id : String)
  | allUnpinned
  | pinned
  deriving DecidableEq, Repr

namespace Scope

/-- The scope that is shown for a category id, one of which stands for all. -/
def ofCategory (id : String) : Scope :=
  if id = Category.allId then .allUnpinned else .category id

/-- Whether a link belongs to the scope. -/
def contains : Scope → Link → Bool
  | .category id, l => !l.pinned && l.categoryId == id
  | .allUnpinned, l => !l.pinned
  | .pinned, l => l.pinned

/-- The rank that orders the links of the scope. -/
def rank : Scope → Link → Int
  | .pinned, l => Shelf.pinRank l
  | _, l => l.orderKey

/-- A link with a new rank in the scope. -/
def withRank : Scope → Nat → Link → Link
  | .pinned, k, l => { l with pinnedOrder := some k }
  | _, k, l => { l with order := some k }

end Scope

namespace Shelf

/-- The links of the scope with their indices, as they are shown. -/
def shownIn (scope : Scope) (links : Shelf) : List (Link × Nat) :=
  Sequence.ranked scope.contains scope.rank links

/-- Moves one link of a scope to the place of another and counts the scope again.
Nothing changes where the ids are equal or one of them is not in the scope. -/
def reorder (links : Shelf) (activeId overId : String) (scope : Scope) : Shelf :=
  if activeId = overId then links
  else
    let shown := shownIn scope links
    match shown.findIdx? (·.1.id == activeId), shown.findIdx? (·.1.id == overId) with
    | some source, some target =>
      sort (Sequence.renumber scope.withRank (Sequence.move source target (shown.map (·.2))) links)
    | _, _ => links

/-- The links shown for a category id. -/
def inCategory (links : Shelf) (categoryId : String) : Shelf :=
  sort (links.filter (Scope.ofCategory categoryId).contains)

end Shelf

end Bookmarks
