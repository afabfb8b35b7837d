import Bookmarks.Disk.Basic
import Bookmarks.Settings.File

/-! # The place of the settings

What the settings file comes upon at its path: whether there is a file, and if not,
what becomes of an attempt to write one.  A file on the disk is taken for one that can be
written.
-/
namespace Bookmarks.Disk

open Host (Spot)

/-- What the settings file comes upon at a path. -/
def place (d : Disk) (directory : Spot) (path : Bytes) : Place :=
  match d.find directory path with
  | .taken _ (.file text) => .file text
  | .taken _ .device => .file ""
  | .taken _ (.directory _) => .directory
  | _ =>
    let (made, d) := d.makeWay directory path
    if !made then .barred
    else
      match d.find directory path with
      | .free _ => .vacant
      | .taken _ (.directory _) => .unfit true
      | _ => .unfit false

/-- The disk with what a settings file has come to at its path. -/
def putPlace (d : Disk) (directory : Spot) (path : Bytes) : Place → Disk
  | .file text =>
    let d := (d.makeWay directory path).2
    match d.find directory path with
    | .taken spot (.file _) => d.putText spot text
    | .free spot => d.putText spot text
    | _ => d
  | _ => d

end Bookmarks.Disk
