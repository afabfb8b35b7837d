import Bookmarks.Collection.Command

/-! # The store

The store holds the collection in memory and keeps its text in a storage.  A
command is computed first and takes effect as a whole: the next collection is
swapped in, then written.  **When the write is refused the collection in memory
stays ahead of the stored one**, the store is dirty, and a later write brings them
together again.
-/
namespace Bookmarks

/-- Where the collection in memory came from. -/
inductive Source where
  /-- It was read and repaired. -/
  | persisted
  /-- Nothing was stored yet. -/
  | seeded
  /-- What was stored could not be read. -/
  | recovered
  deriving DecidableEq, Repr

/-- The collection in memory. -/
structure Store where
  collection : Collection
  source : Source
  /-- Whether the last write was refused. -/
  dirty : Bool
  deriving DecidableEq, Repr

namespace Store

/-- What an operation on the store comes to. -/
structure Outcome (ρ : Type) where
  answer : Except StoreError ρ
  store : Store
  storage : Storage

/-- The collection that is stored, before any repair, and where it came from. -/
def fetch (storage : Storage) : Collection × Source :=
  match storage.read Storage.dataKey with
  | .error _ => (.seed, .recovered)
  | .ok none => (.seed, .seeded)
  | .ok (some text) =>
    match Collection.codec.ofText text with
    | .ok c => (c, .persisted)
    | .error _ => (.seed, .recovered)

/-- The store with the collection that is stored, repaired. -/
def load (storage : Storage) : Store :=
  let (c, source) := fetch storage
  { collection := c.repair.collection, source, dirty := false }

/-- Writes the collection. -/
def flush (s : Store) (storage : Storage) : Outcome Unit :=
  match storage.write Storage.dataKey (some (Collection.codec.compact s.collection)) with
  | (.ok _, storage) => ⟨.ok (), { s with dirty := false }, storage⟩
  | (.error e, storage) => ⟨.error (.ofStorage e), { s with dirty := true }, storage⟩

/-- Swaps the next collection in and writes it. -/
def commit (s : Store) (storage : Storage) (next : Collection) (reply : Reply) : Outcome Reply :=
  let written := flush { s with collection := next } storage
  ⟨written.answer.map fun _ => reply, written.store, written.storage⟩

/-- Carries a command out. -/
def run (supply : Supply) (s : Store) (storage : Storage) (command : Command) : Outcome Reply :=
  match s.collection.perform supply command with
  | .error e => ⟨.error e, s, storage⟩
  | .ok ⟨none, reply⟩ => ⟨.ok reply, s, storage⟩
  | .ok ⟨some next, reply⟩ => s.commit storage next reply

/-- The links, as they are shown. -/
def links (s : Store) : List Link := s.collection.links

/-- The categories. -/
def categories (s : Store) : List Category := s.collection.categories

/-- The links shown for a category id. -/
def view (s : Store) (categoryId : String) : List Link :=
  Shelf.inCategory s.links categoryId

/-- The pinned links, as they are shown. -/
def pins (s : Store) : List Link :=
  Shelf.pins s.links

/-- The text of the collection for somebody to keep elsewhere. -/
def exportText (s : Store) : String :=
  Collection.codec.pretty s.collection

end Store

end Bookmarks
