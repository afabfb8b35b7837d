import Bookmarks.Disk.Opening
import Bookmarks.Disk.Place
import Bookmarks.Server

/-! # The program

A run of the program finds its settings and its storage on the disk, serves one host
to the end of its input, and leaves the disk changed.  **Where the storage cannot be
opened nothing is served**, but what was made on the way to it stays.
-/
namespace Bookmarks

open Host (Spot)

/-- What a run starts from. -/
structure Program where
  environment : Environment
  /-- The directory that paths are seen from. -/
  directory : Spot
  /-- What the reader of a line finds wrong with one that is no JSON value, in its own words. -/
  explain : String → String := fun _ => TextFault.malformed.message

/-- The storage of a run, which may be nowhere on the disk. -/
inductive Program.Source where
  | volatile
  | kept (opened : Disk.Opened)

namespace Program

/-- The storage at the start. -/
def Source.storage : Source → Storage
  | .volatile => .empty
  | .kept opened => opened.storage

/-- The storage before the next request: nothing is refused but what may not be done. -/
def Source.refreshed (source : Source) (storage : Storage) : Storage :=
  .ofEntries storage.entries source.storage.refusesWrites

/-- The disk with what has become of the storage. -/
def Source.keep (source : Source) (d : Disk) (storage : Storage) : Disk :=
  match source with
  | .volatile => d
  | .kept opened => d.keep opened storage

/-- The path of the settings. -/
def settingsPath (p : Program) : Bytes :=
  Text.utf8 (Host.settingsPath p.environment)

/-- What the settings come upon. -/
def place (p : Program) (d : Disk) : Place :=
  d.place p.directory p.settingsPath

/-- The settings at the start. -/
def settingsFile (p : Program) (d : Disk) : SettingsFile :=
  Server.initialSettings p.environment (p.place d)

/-- The name of the storage. -/
def storageName (p : Program) (d : Disk) : String :=
  (p.settingsFile d).storageName (Server.dataDirectory p.environment)

/-! ## What a run depends on -/

/-- The places that a path leads through, seen from a directory. -/
def trail (directory : Spot) (path : Bytes) : List Spot :=
  let first := Host.start directory path
  ((Host.steps path).foldl (fun (spots : List Spot × Spot) step =>
    let next := Host.walk spots.2 step
    (next :: spots.1, next)) ([first], first)).1

/-- The directories above a place, and the place. -/
def above (spot : Spot) : List Spot :=
  (List.range (spot.length + 1)).map spot.take

/-- The places that a storage depends on. -/
def storageSpots (directory : Spot) (path : Bytes) (access : Access) : List Spot :=
  let spots := trail directory path
  let spot := spots.headD []
  [Disk.journalSpot spot, Disk.logSpot spot, Disk.indexSpot spot, Disk.lockSpot spot] ++ spots ++
    ((access.model.map (trail directory)).getD [])

/-- The places that the settings depend on. -/
def settingsSpots (p : Program) : List Spot :=
  ((trail p.directory p.settingsPath).flatMap above).eraseDups

/-- The places that a run depends on whose storage has a name. -/
def spots (p : Program) (name : String) : List Spot :=
  let kept := match Location.ofName? name with
    | some (.kept path access) => storageSpots p.directory path access
    | _ => []
  ((trail p.directory (Text.utf8 name) ++ kept).flatMap above).eraseDups

/-! ## A run -/

/-- Opens the storage of a name.  The directories on the way to it are made before the
name is looked at any closer. -/
def openNamed (p : Program) (d : Disk) (name : String) : Option Source × Disk :=
  match d.makeWay p.directory (Text.utf8 name) with
  | (false, d) => (none, d)
  | (true, d) =>
    match Location.ofName? name with
    | none => (none, d)
    | some .volatile => (some .volatile, d)
    | some (.kept path access) =>
      let (opened, d) := d.openStorage p.directory path access
      (opened.map .kept, d)

/-- The lines of a run, unless it fails, and the disk after it. -/
def run (cipher : Cipher) (p : Program) (d : Disk) (now : Nat) (arrivals : List Arrival) :
    Option (List String) × Disk :=
  let place := p.place d
  let settingsFile := p.settingsFile d
  match p.openNamed d (p.storageName d) with
  | (none, d) => (none, d)
  | (some source, d) =>
    let (lines, app) := Server.serve cipher p.explain (.start source.storage settingsFile place) now arrivals
    let d := source.keep d app.storage
    (some lines, if app.place = place then d else d.putPlace p.directory p.settingsPath app.place)

end Program

end Bookmarks
