import Bookmarks.Disk.Basic
import Bookmarks.Host.Location
import Bookmarks.Storage.Image

/-! # Opening a storage

A storage is kept in a file, and while it is open there may be others beside it: a
journal of what was there before a change, or a log of what is to be there with an
index of the log.  They are known by their names alone.  **Whatever has such a name
is taken for one**, so that opening a storage may remove a file that is something
else.

A storage that may be changed by way of a log is changed so from then on.  The log and
its index go when it is closed, unless it was only read.
-/
namespace Bookmarks.Disk

open Host (Spot Name)

/-! ## The file -/

/-- The longest path to the file of a storage. -/
def longestStoragePath : Nat := 504

/-- The longest path on the way there. -/
def longestDetour : Nat := 511

/-- The longest name that leaves room for the name of a journal. -/
def longestStorageName : Nat := 247

/-- Whether a name can be asked for within a place: no file is above it, and it is not
too long for the directory, if there is one. -/
def canAsk (d : Disk) (spot : Spot) (name : Name) : Bool :=
  (List.range (spot.length + 1)).all (fun n =>
    match d.node? (spot.take n) with
    | some (.directory _) => true
    | some _ => false
    | none => true) &&
  (!d.isDirectory spot || name.length ≤ longestName)

/-- One step to the file of a storage.  Two dots lead back whatever is there. -/
def climb (d : Disk) (spot : Spot) (step : Name) : Option Spot :=
  if step = Host.back then some spot.dropLast
  else
    let next := spot ++ [step]
    if next.bytes.length ≤ longestDetour && d.canAsk spot step then some next else none

/-- The place of the file of a storage. -/
def storageSpot? (d : Disk) (directory : Spot) (path : Bytes) : Option Spot := do
  let spot ← (Host.steps path).foldlM d.climb (Host.start directory path)
  if spot != [] && spot.bytes.length ≤ longestStoragePath then some spot else none

/-- The disk with a file at a place, if there is one or one may be made. -/
def provide? (d : Disk) (spot : Spot) (a : Access) : Option Disk :=
  match d.node? spot with
  | some (.file _) => some d
  | some _ => none
  | none => if a.creates && d.admits spot.dropLast then some (d.putText spot "") else none

/-- Whether the file is there whose permissions a new file gets, if one is named. -/
def hasModel (d : Disk) (directory : Spot) (a : Access) : Bool :=
  a.model.all (d.reaches directory)

/-! ## What is beside it -/

/-- The place of the journal. -/
def journalSpot (spot : Spot) : Spot := spot.beside "-journal"

/-- The place of the log. -/
def logSpot (spot : Spot) : Spot := spot.beside "-wal"

/-- The place of the index of the log. -/
def indexSpot (spot : Spot) : Spot := spot.beside "-shm"

/-- The place of the directory that keeps others out. -/
def lockSpot (spot : Spot) : Spot := spot.beside ".lock"

/-- Whether a place holds anything but an empty file. -/
def isHeld (d : Disk) (spot : Spot) : Bool :=
  match d.node? spot with
  | some (.file text) => text != ""
  | some _ => true
  | none => false

/-- The disk without the file at a place. -/
def removeFile (d : Disk) (spot : Spot) : Disk :=
  if (d.text? spot).isSome then d.put spot none else d

/-- Goes back to what a journal holds, which then is done with.  What is no journal
holds nothing.  The answer says whether the storage can be opened. -/
def settleJournal (d : Disk) (spot : Spot) (a : Access) : Bool × Disk :=
  let journal := journalSpot spot
  if !d.isHeld journal then (true, d)
  else if d.text? spot == some "" then (true, if a.mayClear then d.removeFile journal else d)
  else if a.writes && (d.text? journal).isSome then (true, d.removeFile journal)
  else (false, d)

/-- Looks for a log.  The log of an empty storage is done with; otherwise the answer
says whether there is one. -/
def settleLog? (d : Disk) (spot : Spot) : Option (Bool × Disk) :=
  let log := logSpot spot
  if !d.isHeld log then some (false, d)
  else if d.text? spot == some "" then
    if (d.text? log).isSome then some (false, d.removeFile log) else none
  else some (true, d)

/-- What can be done with the index of a log. -/
inductive Index where
  /-- It is kept in memory. -/
  | inner
  /-- It is kept on the disk. -/
  | outer
  /-- It can only be read, which takes a log that holds nothing. -/
  | frozen
  /-- There is none, and none may be made. -/
  | missing
  deriving DecidableEq, Repr

/-- What can be done with the index of the log of a storage. -/
def index (d : Disk) (spot : Spot) (a : Access) : Index :=
  if a.keepsIndex then .inner
  else
    match d.node? (indexSpot spot) with
    | none => if a.readsIndex then .missing else .outer
    | some (.file _) => if a.readsIndex then .frozen else .outer
    | some _ => .frozen

/-- What an index leaves on the disk. -/
def indexText : String := "index\n"

/-- The disk with a log, be it an empty one. -/
def withLog (d : Disk) (spot : Spot) : Disk :=
  if (d.node? (logSpot spot)).isSome then d else d.putText (logSpot spot) ""

/-- The disk as it is when a storage with a log has been closed. -/
def withoutLog (d : Disk) (spot : Spot) (a : Access) (index : Index) : Disk :=
  match index with
  | .inner => d.removeFile (logSpot spot)
  | .outer =>
    if a.writes then (d.removeFile (logSpot spot)).removeFile (indexSpot spot)
    else (d.withLog spot).putText (indexSpot spot) indexText
  | .frozen => d.withLog spot
  | .missing => d.withLog spot

/-! ## Opening and closing -/

/-- A storage that is open, with the place and the journal of its image. -/
structure Opened where
  storage : Storage
  spot : Spot
  journal : Journal

/-- Writes an image. -/
def putImage (d : Disk) (spot : Spot) (image : Image) : Disk :=
  d.putText spot image.text

/-- The table of an image, or a new one if one can be made. -/
def table? (image : Image) (canWrite : Bool) : Option (List (String × String)) :=
  match image.entries with
  | some entries => some entries
  | none => if canWrite then some [] else none

/-- Whether a journal can be written. -/
def admitsJournal (d : Disk) (spot : Spot) : Bool :=
  (spot.getLastD []).length ≤ longestStorageName && !d.isHeld (journalSpot spot)

/-- Opens an image without a log. -/
def openPlain (d : Disk) (spot : Spot) (a : Access) (image : Image) : Option Opened × Disk :=
  match table? image (a.writes && d.admitsJournal spot) with
  | none => (none, d)
  | some entries =>
    (some ⟨.ofEntries entries (!a.writes), spot, image.journal⟩,
      if a.writes then d.putImage spot { image with entries := some entries } else d)

/-- Opens an image with a log. -/
def openLogged (d : Disk) (spot : Spot) (a : Access) (image : Image) : Option Opened × Disk :=
  let log := logSpot spot
  let index := d.index spot a
  let canWrite := a.writes && index != .frozen
  if d.isDirectory log then (none, d)
  else if index == .missing || (index == .frozen && d.isHeld log) then (none, d.withLog spot)
  else
    match table? image canWrite with
    | none => (none, d.withoutLog spot a index)
    | some entries =>
      let d := d.withoutLog spot a index
      (some ⟨.ofEntries entries (!canWrite), spot, image.journal⟩,
        if canWrite then d.putImage spot { image with entries := some entries } else d)

/-- Opens an image, with a log from now on if that can be. -/
def openImage (d : Disk) (spot : Spot) (a : Access) (image : Image) (hasLog : Bool) :
    Option Opened × Disk :=
  if hasLog || image.journal == .ahead then
    if a.usesLog then d.openLogged spot a image else (none, d)
  else if !a.usesLog then d.openPlain spot a image
  else if a.writes && d.admitsJournal spot then
    let image := { image with journal := .ahead }
    ((d.removeFile (journalSpot spot)).putImage spot image).openLogged spot a image
  else (none, d)

/-- Opens a file that nobody changes.  Nothing beside it counts. -/
def openImmutable (d : Disk) (spot : Spot) : Option Opened := do
  let image ← Image.ofText? (← d.text? spot)
  let entries ← image.entries
  return ⟨.ofEntries entries true, spot, image.journal⟩

/-- Opens a file. -/
def openFile (d : Disk) (spot : Spot) (a : Access) : Option Opened × Disk :=
  if a.immutable then (d.openImmutable spot, d)
  else if a.locks && a.locking == .directory && (d.node? (lockSpot spot)).isSome then (none, d)
  else
    match d.settleJournal spot a with
    | (false, d) => (none, d)
    | (true, d) =>
      match d.settleLog? spot with
      | none => (none, d)
      | some (hasLog, d) =>
        match (d.text? spot).bind Image.ofText? with
        | none => (none, d)
        | some image => d.openImage spot a image hasLog

/-- Opens the storage at a path. -/
def openStorage (d : Disk) (directory : Spot) (path : Bytes) (a : Access) : Option Opened × Disk :=
  match d.storageSpot? directory path with
  | none => (none, d)
  | some spot =>
    if !d.hasModel directory a then (none, d)
    else
      match d.provide? spot a with
      | none => (none, d)
      | some d => d.openFile spot a

/-- The disk with what has become of a storage. -/
def keep (d : Disk) (opened : Opened) (storage : Storage) : Disk :=
  if opened.storage.refusesWrites then d
  else d.putImage opened.spot ⟨opened.journal, some storage.entries⟩

end Bookmarks.Disk
