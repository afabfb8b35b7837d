import Bookmarks.Category
import Bookmarks.Link.Basic
import Bookmarks.Sequence

/-! # Shelves

A shelf is a list of links in the order in which they are shown: the pinned ones
first, by their pinned rank, then the others by their order.  Every operation
here answers a new shelf; where it touches pins it leaves **the pinned ranks as
`0, 1, …, n - 1`** and no rank on an unpinned link.
-/
namespace Bookmarks

/-- The order in which two links are shown. -/
def Link.compare (a b : Link) : Ordering :=
  match a.pinned, b.pinned with
  | true, false => .lt
  | false, true => .gt
  | true, true => Ord.compare (a.pinnedOrder.getD 0) (b.pinnedOrder.getD 0)
  | false, false => Ord.compare a.orderKey b.orderKey

/-- Whether a link may be shown before another. -/
def Link.le (a b : Link) : Bool :=
  (a.compare b).isLE

/-- A list of links. -/
abbrev Shelf := List Link

namespace Shelf

/-- The links in the order in which they are shown. -/
def sort (links : Shelf) : Shelf :=
  Sequence.sortBy Link.le links

/-- The number of pinned links. -/
def pinnedCount (links : Shelf) : Nat :=
  links.countP (·.pinned)

/-- The link with a rank among the pinned ones. -/
def withPinnedOrder (k : Nat) (l : Link) : Link :=
  { l with pinnedOrder := some k }

/-- The rank by which pinned links are counted again; a link without one counts
last. -/
def pinRank (l : Link) : Int :=
  l.pinnedOrder.getD maxRank

/-- The indices of the pinned links, by their ranks. -/
def pinnedPlaces (links : Shelf) : List Nat :=
  (Sequence.ranked (·.pinned) pinRank links).map (·.2)

/-- An unpinned link without a rank among the pinned ones. -/
def clearUnpinned (l : Link) : Link :=
  if l.pinned then l else { l with pinnedOrder := none }

/-- The links with the pinned ones counted again from zero. -/
def compactPins (links : Shelf) : Shelf :=
  (Sequence.renumber withPinnedOrder (pinnedPlaces links) links).map clearUnpinned

/-- The link in the other state of being pinned; pinning gives it the rank after
`count` others. -/
def flipPin (count : Nat) (l : Link) : Link :=
  if l.pinned then { l with pinned := false, pinnedOrder := none }
  else { l with pinned := true, pinnedOrder := some count }

/-- Pins or unpins the link with an id, if it is there. -/
def togglePin? (links : Shelf) (id : String) : Option Shelf :=
  (Sequence.modifyFirst? (·.id == id) (flipPin (pinnedCount links)) links).map fun links =>
    sort (compactPins links)

/-- The orders of the unpinned links of a category; a link without one counts as
zero. -/
def ordersIn (links : Shelf) (categoryId : String) : List Int :=
  (links.filter fun l => !l.pinned && l.categoryId == categoryId).map fun l => l.order.getD 0

/-- The order after all unpinned links of a category, or the greatest rank. -/
def freeOrder (links : Shelf) (categoryId : String) : Int :=
  match (ordersIn links categoryId).max? with
  | some n => min (n + 1) maxRank
  | none => 0

/-- The links with a new one, last in its category; a pinned one comes after the
other pins. -/
def insert (links : Shelf) (l : Link) : Shelf :=
  let l := { l with order := some (freeOrder links l.categoryId) }
  if l.pinned then
    links.takeWhile (·.pinned) ++ withPinnedOrder (pinnedCount links) l :: links.dropWhile (·.pinned)
  else
    sort (links ++ [{ l with pinnedOrder := none }])

/-- The links without the one with an id, if it is there. -/
def remove? (links : Shelf) (id : String) : Option Shelf :=
  (links.find? (·.id == id)).map fun l =>
    let rest := links.eraseP (·.id == id)
    if l.pinned then compactPins rest else rest

/-- The pinned links, as they are shown. -/
def pins (links : Shelf) : Shelf :=
  sort (links.filter (·.pinned))

/-- A link whose category is unknown, in the common one. -/
def adopt (categories : List Category) (l : Link) : Link :=
  if Category.isKnown categories l.categoryId then l else { l with categoryId := Category.commonId }

/-- The links with those of unknown categories in the common one. -/
def adoptOrphans (categories : List Category) (links : Shelf) : Shelf :=
  links.map (adopt categories)

/-- The number of links of unknown categories. -/
def orphanCount (categories : List Category) (links : Shelf) : Nat :=
  links.countP fun l => !Category.isKnown categories l.categoryId

end Shelf

end Bookmarks
