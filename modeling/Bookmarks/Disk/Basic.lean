import Bookmarks.Host.Path

/-! # The disk

Of the disk only so much matters here as the program can come upon: which places are
taken, by a directory or by a file, and the texts of the files.

A path is followed **step by step through directories that are there**, so that it
may lead nowhere although its place, taken on its own, exists.
-/
namespace Bookmarks

/-- What is at a place. -/
inductive Node where
  /-- A directory, in which something can be made or not. -/
  | directory (admits : Bool)
  /-- A file with its text. -/
  | file (text : String)
  /-- Something that is read as empty, and that forgets what is written. -/
  | device
  deriving DecidableEq, Repr

/-- The places that are taken. -/
structure Disk where
  nodes : List (Host.Spot × Node)
  deriving DecidableEq, Repr

namespace Disk

open Host (Spot Name)

/-- The longest name in a directory. -/
def longestName : Nat := 255

/-- The longest path. -/
def longestPath : Nat := 4095

/-- What is at a place; the root is a directory. -/
def node? (d : Disk) (spot : Spot) : Option Node :=
  if spot = [] then some (.directory true) else d.nodes.lookup spot

/-- The disk with something at a place, or nothing. -/
def put (d : Disk) (spot : Spot) (node : Option Node) : Disk :=
  let others := d.nodes.filter (·.1 != spot)
  match node with
  | some n => ⟨(spot, n) :: others⟩
  | none => ⟨others⟩

/-- The disk with a text in a file. -/
def putText (d : Disk) (spot : Spot) (text : String) : Disk :=
  d.put spot (some (.file text))

/-- The text of a file. -/
def text? (d : Disk) (spot : Spot) : Option String :=
  match d.node? spot with
  | some (.file text) => some text
  | _ => none

/-- Whether a place is a directory. -/
def isDirectory (d : Disk) (spot : Spot) : Bool :=
  match d.node? spot with
  | some (.directory _) => true
  | _ => false

/-- Whether a place is a directory in which something can be made. -/
def admits (d : Disk) (spot : Spot) : Bool :=
  d.node? spot == some (.directory true)

/-! ## Following a path -/

/-- Where a path leads. -/
inductive Finding where
  /-- To what is at a place. -/
  | taken (spot : Spot) (node : Node)
  /-- To a place where a file could be made. -/
  | free (spot : Spot)
  /-- Nowhere. -/
  | nowhere
  deriving DecidableEq, Repr

/-- Follows the fields of a path from a place. -/
def follow (d : Disk) : Spot → List Name → Finding
  | spot, [] =>
    match d.node? spot with
    | some node => .taken spot node
    | none => .nowhere
  | spot, name :: rest =>
    if !d.isDirectory spot then .nowhere
    else if !Host.leads name then d.follow spot rest
    else if name = Host.back then d.follow spot.dropLast rest
    else if (d.node? (spot ++ [name])).isSome then d.follow (spot ++ [name]) rest
    else if rest.isEmpty && name.length ≤ longestName && d.admits spot then .free (spot ++ [name])
    else .nowhere

/-- Whether a path can be asked for: it is not empty, holds no zero, and is not too
long. -/
def isPath (path : Bytes) : Bool :=
  path != [] && !path.contains 0 && path.length ≤ longestPath

/-- Where a path leads, seen from a directory. -/
def find (d : Disk) (directory : Spot) (path : Bytes) : Finding :=
  if isPath path then d.follow (Host.start directory path) (Host.fields path) else .nowhere

/-- Whether a path leads to anything. -/
def reaches (d : Disk) (directory : Spot) (path : Bytes) : Bool :=
  match d.find directory path with
  | .taken _ _ => true
  | _ => false

/-! ## Making directories -/

/-- Goes on from a place, and makes the directories that are missing.  Where that
fails, those made so far stay. -/
def makeFrom (d : Disk) : Spot → List Name → Bool × Disk
  | _, [] => (true, d)
  | spot, name :: rest =>
    let next := Host.walk spot name
    match d.node? next with
    | some (.directory _) => d.makeFrom next rest
    | some _ => (false, d)
    | none =>
      if name.length ≤ longestName && d.admits spot then
        (d.put next (some (.directory true))).makeFrom next rest
      else (false, d)

/-- The directories that a path leads through, as its steps but the last. -/
def way (path : Bytes) : List Name :=
  (Host.steps path).dropLast

/-- Makes the directories that a path leads through, and says whether they are
there. -/
def makeWay (d : Disk) (directory : Spot) (path : Bytes) : Bool × Disk :=
  let way := way path
  let length := path.length - ((Host.steps path).getLastD []).length - 1
  if way.any (·.contains 0) || longestPath < length then (false, d)
  else d.makeFrom (Host.start directory path) way

end Disk

end Bookmarks
