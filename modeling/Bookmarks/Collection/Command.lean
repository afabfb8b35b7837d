import Bookmarks.Collection.Merge
import Bookmarks.Shelf.Edit
import Bookmarks.Storage
import Bookmarks.Supply

/-! # Commands on a collection

A command takes a collection to the next one and gives a reply, or it is rejected
for a cause.  A command that would change nothing by its nature, such as putting a
link where it is, has no next collection: then there is nothing to keep either.
-/
namespace Bookmarks

/-- Why a command on the collection fails. -/
inductive StoreError where
  | linkNotFound (id : String)
  | categoryNotFound (id : String)
  | forbiddenOperation (reason : String)
  | invalidLink (reason : String)
  /-- The collection could not be kept; in memory it is ahead of what is stored. -/
  | persistence (reason : String)
  | serialization (reason : String)
  deriving DecidableEq, Repr

namespace StoreError

/-- The wording of the cause. -/
def message : StoreError → String
  | .linkNotFound id => "Link not found: " ++ id
  | .categoryNotFound id => "Category not found: " ++ id
  | .forbiddenOperation reason => "Operation not allowed: " ++ reason
  | .invalidLink reason => "Invalid link: " ++ reason
  | .persistence reason => "Failed to persist links: " ++ reason
  | .serialization reason => "Link snapshot serialization error: " ++ reason

/-- Whether the same command may succeed when it is given again. -/
def isRetryable : StoreError → Bool
  | .persistence _ => true
  | _ => false

/-- The error for a storage that gives no answer. -/
def ofStorage (e : StorageError) : StoreError := .persistence e.message

/-- The error for a command on links. -/
def ofLink : LinkError → StoreError
  | .notFound id => .linkNotFound id
  | .invalid reason => .invalidLink reason.message

/-- The error for a category that cannot be deleted. -/
def ofUndeletable : Collection.Undeletable → StoreError
  | .isCommon => .forbiddenOperation "the common category cannot be deleted"
  | .unknown id => .categoryNotFound id

/-- The error for a category without a name. -/
def blankName : StoreError := .forbiddenOperation "category name must not be empty"

end StoreError

/-- A command on the collection. -/
inductive Command where
  | addLink (draft : Draft)
  | updateLink (update : Update)
  | deleteLink (id : String)
  | togglePin (id : String)
  | reorderLinks (activeId overId categoryId : String)
  | reorderPinned (activeId overId : String)
  | addCategory (name icon : String)
  | updateCategory (category : Category)
  | deleteCategory (id : String)
  | importData (links : List Link) (categories : List Category)
  deriving DecidableEq, Repr

/-- What an import has done. -/
structure ImportSummary where
  linksAdded : Nat
  categoriesAdded : Nat
  idsReassigned : Nat
  linksSkipped : Nat
  deriving DecidableEq, Repr

/-- What a command answers. -/
inductive Reply where
  | done
  | created (id : String)
  | imported (summary : ImportSummary)
  deriving DecidableEq, Repr

/-- What a command comes to: its reply, and the next collection if there is one. -/
structure Effect where
  next : Option Collection
  reply : Reply
  deriving DecidableEq, Repr

namespace Collection

/-- The collection with other links. -/
def withLinks (c : Collection) (links : Shelf) : Collection :=
  { c with links }

/-- The effect of a command on links. -/
def linkEffect (c : Collection) (reply : Reply) : Except LinkError Shelf → Except StoreError Effect
  | .ok links => .ok ⟨some (c.withLinks links), reply⟩
  | .error e => .error (.ofLink e)

/-- The effect of a new order, which is none if the order is the same. -/
def orderEffect (c : Collection) (links : Shelf) : Effect :=
  if links = c.links then ⟨none, .done⟩ else ⟨some (c.withLinks links), .done⟩

/-- A link edited as an update says, with the address put into its stored form. -/
def edit (categories : List Category) (u : Update) (l : Link) : Except InvalidLink Link := do
  let url ← acceptUrl (u.url.getD l.url)
  let title ← match u.title with
    | some title => acceptTitle title
    | none => pure l.title
  return { l with
    url, title
    description := Update.replaced u.description l.description
    icon := Update.replaced u.icon l.icon
    categoryId := match u.categoryId with
      | some id => Category.resolve categories (some id)
      | none => l.categoryId }

/-- A link from elsewhere in its stored form, if it has an address and a title. -/
def sanitize (l : Link) : Option Link :=
  match acceptUrl l.url, acceptTitle l.title with
  | .ok url, .ok title => some { l with url, title }
  | _, _ => none

/-- The collection with links and categories from elsewhere, less the links
without an address or a title. -/
def importEffect (c : Collection) (fresh : Nat → String) (links : List Link) (categories : List Category) :
    Effect :=
  let kept := links.filterMap sanitize
  let merged := c.merge fresh kept categories
  { next := some merged.collection
    reply := .imported
      { linksAdded := merged.linksAdded
        categoriesAdded := merged.categoriesAdded
        idsReassigned := merged.idsReassigned
        linksSkipped := links.length - kept.length } }

/-- What a command comes to. -/
def perform (c : Collection) (supply : Supply) : Command → Except StoreError Effect
  | .addLink draft =>
    c.linkEffect (.created (supply.id 0))
      (Shelf.add c.links draft (supply.id 0) supply.now (Category.resolve c.categories draft.categoryId))
  | .updateLink u => c.linkEffect .done (Shelf.update c.links u (edit c.categories u))
  | .deleteLink id => c.linkEffect .done (Shelf.delete c.links id)
  | .togglePin id => c.linkEffect .done (Shelf.togglePin c.links id)
  | .reorderLinks activeId overId categoryId =>
    .ok (c.orderEffect (Shelf.reorder c.links activeId overId (Scope.ofCategory categoryId)))
  | .reorderPinned activeId overId => .ok (c.orderEffect (Shelf.reorder c.links activeId overId .pinned))
  | .addCategory name icon =>
    let name := Text.trim name
    if name = "" then .error .blankName
    else
      let category : Category := ⟨supply.id 0, name, icon⟩
      .ok ⟨some { c with categories := c.categories ++ [category] }, .created (supply.id 0)⟩
  | .updateCategory category =>
    match Sequence.modifyFirst? (·.id == category.id) (fun _ => category) c.categories with
    | none => .error (.categoryNotFound category.id)
    | some categories =>
      if Text.isBlankText category.name then .error .blankName
      else .ok ⟨some { c with categories }, .done⟩
  | .deleteCategory id =>
    match c.deleteCategory id with
    | .ok next => .ok ⟨some next, .done⟩
    | .error e => .error (.ofUndeletable e)
  | .importData links categories => .ok (c.importEffect supply.id links categories)

end Collection

end Bookmarks
