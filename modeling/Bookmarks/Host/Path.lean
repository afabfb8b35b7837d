import Bookmarks.Bytes.Basic
import Bookmarks.Text.Fields
import Bookmarks.Text.Lossy

/-! # Paths

A path is a byte sequence that leads to a place step by step.  An empty step and a
single dot lead nowhere, and two dots lead back.
-/
namespace Bookmarks.Host

/-- A path below another one. -/
def join (base part : String) : String :=
  if base = "" then part
  else if base.toList.getLast? = some '/' then base ++ part
  else base ++ "/" ++ part

/-- A path below another one by several steps. -/
def joinAll (base : String) (parts : List String) : String :=
  parts.foldl join base

/-- A name within a directory. -/
abbrev Name := Bytes

/-- A place, as the names on the way from the root. -/
abbrev Spot := List Name

/-- The byte between two steps. -/
def slash : UInt8 := 0x2F

/-- The step that leads nowhere. -/
def here : Name := Text.utf8 "."

/-- The step that leads back. -/
def back : Name := Text.utf8 ".."

/-- Whether a path starts at the root. -/
def isAbsolute (path : Bytes) : Bool :=
  path.head? == some slash

/-- All that is between the slashes of a path. -/
def fields (path : Bytes) : List Name :=
  Text.splitAt slash path

/-- Whether a step leads anywhere. -/
def leads (step : Name) : Bool :=
  step != [] && step != here

/-- The steps of a path that lead anywhere. -/
def steps (path : Bytes) : List Name :=
  (fields path).filter leads

/-- The place one step further. -/
def walk (spot : Spot) (step : Name) : Spot :=
  if step = back then spot.dropLast else spot ++ [step]

/-- Where the first step of a path is taken, seen from a directory. -/
def start (directory : Spot) (path : Bytes) : Spot :=
  if isAbsolute path then [] else directory

/-- The path from the root to a place. -/
def Spot.bytes (spot : Spot) : Bytes :=
  spot.flatMap fun name => slash :: name

/-- The path from the root to a place, as a text. -/
def Spot.path (spot : Spot) : String :=
  if spot.isEmpty then "/" else Text.lossy spot.bytes

/-- The place beside another one whose name goes on with an ending. -/
def Spot.beside (spot : Spot) (ending : String) : Spot :=
  spot.dropLast ++ [spot.getLastD [] ++ Text.utf8 ending]

end Bookmarks.Host
