import Bookmarks.Host.FileUri

/-! # Where a storage is

A storage is opened by a name.  Most names are paths.  One stands for a storage that
is forgotten at the end, and a name that is a file URI may say by its options how the
storage is to be opened.
-/
namespace Bookmarks

/-- How a storage keeps other programs out. -/
inductive Locking where
  /-- By locks on its file. -/
  | shared
  /-- By one lock that is kept to the end. -/
  | exclusive
  /-- By a directory beside its file. -/
  | directory
  /-- Not at all. -/
  | nothing
  deriving DecidableEq, Repr

/-- How a storage that is kept is to be opened. -/
structure Access where
  /-- Whether one is made where there is none. -/
  creates : Bool
  /-- Whether it may be changed. -/
  writes : Bool
  /-- Whether nobody else changes it, so that no care is needed. -/
  immutable : Bool
  /-- Whether its locks are used at all. -/
  locks : Bool
  locking : Locking
  /-- Whether the index of its log is only read. -/
  readsIndex : Bool
  /-- The file whose permissions a new file gets. -/
  model : Option Bytes
  deriving DecidableEq, Repr

/-- Where a storage is: nowhere but in memory, or at a path. -/
inductive Location where
  | volatile
  | kept (path : Bytes) (access : Access)
  deriving DecidableEq, Repr

namespace Access

/-- How a storage is opened by a path alone. -/
def full : Access := ⟨true, true, false, true, .shared, false, none⟩

/-- Whether a storage can be changed by way of a log. -/
def usesLog (a : Access) : Bool :=
  a.locks && (a.locking == .shared || a.locking == .exclusive)

/-- Whether the log needs no index on the disk. -/
def keepsIndex (a : Access) : Bool :=
  a.locking == .exclusive && a.writes

/-- Whether a file may be removed that hinders the storage while it is empty. -/
def mayClear (a : Access) : Bool :=
  a.writes || !a.locks || a.locking == .directory || a.locking == .nothing

end Access

/-- A way to open a storage. -/
inductive OpenMode where
  | reading
  | updating
  | creating
  | volatile
  deriving DecidableEq, Repr

namespace OpenMode

/-- The mode of a word. -/
def ofText? : String → Option OpenMode
  | "ro" => some .reading
  | "rw" => some .updating
  | "rwc" => some .creating
  | "memory" => some .volatile
  | _ => none

/-- How much a mode allows. -/
def rank : OpenMode → Nat
  | .reading => 0
  | .updating => 1
  | .creating => 2
  | .volatile => 3

/-- Whether an option may change a mode to another: not to one that allows more. -/
def admits (current next : OpenMode) : Bool :=
  next == .volatile || next.rank ≤ current.rank

/-- The values of the option for caches. -/
def caches : List String := ["shared", "private"]

/-- The mode after an option, if the option is right. -/
def choose? (current : OpenMode) (option : String × Bytes) : Option OpenMode :=
  let value := Text.lossy option.2
  if option.1 = "mode" then do
    let next ← ofText? value
    if current.admits next then some next else none
  else if option.1 = "cache" then if caches.contains value then some current else none
  else some current

end OpenMode

/-- The systems that files can be in: the disk, with a way of locking, or memory. -/
inductive FileSystem where
  | disk (locking : Locking)
  | memory
  deriving DecidableEq, Repr

namespace FileSystem

/-- The system of a word. -/
def ofText? : String → Option FileSystem
  | "unix" => some (.disk .shared)
  | "unix-excl" => some (.disk .exclusive)
  | "unix-dotfile" => some (.disk .directory)
  | "unix-none" => some (.disk .nothing)
  | "memdb" => some .memory
  | _ => none

/-- The longest path in memory. -/
def longestPath : Nat := 1016

end FileSystem

namespace Location

/-- The name of a storage that is forgotten at the end. -/
def volatileName : String := ":memory:"

/-- Whether a path names no file. -/
def isVolatilePath (path : Bytes) : Bool :=
  path == [] || path == Text.utf8 volatileName

/-- The location that a file URI names, if its options are right.  What is in memory
is new, so that it cannot be there only to be read. -/
def ofUri? (uri : FileUri) : Option Location := do
  let mode ← uri.options.foldlM OpenMode.choose? .creating
  let system ← match uri.lastValue? "vfs" with
    | some value => FileSystem.ofText? (Text.lossy value)
    | none => some (.disk .shared)
  let immutable := uri.isYes "immutable"
  if mode == .volatile || isVolatilePath uri.path then
    if mode == .reading then none else some .volatile
  else
    match system with
    | .memory =>
      if mode == .reading || immutable || FileSystem.longestPath < uri.path.length then none
      else some .volatile
    | .disk locking =>
      some (.kept uri.path {
        creates := mode == .creating
        writes := mode != .reading
        immutable
        locks := !uri.isYes "nolock"
        locking
        readsIndex := uri.isYes "readonly_shm"
        model := uri.value? "modeof" })

/-- The location that a name stands for, if a storage can have that name. -/
def ofName? (name : String) : Option Location :=
  if name.toList.contains '\x00' then none
  else if FileUri.isUri name then FileUri.ofText? name >>= ofUri?
  else
    let path := Text.utf8 name
    if isVolatilePath path then some .volatile else some (.kept path .full)

end Location

end Bookmarks
