import Bookmarks.Program
import Std.Time.DateTime.Timestamp

/-! # The program on a real disk

Of the real disk the program takes a picture of the places that it depends on,
works out on the picture what is to be done, and does that.  After every line it
brings the disk up to date.

A line is answered for a disk that takes whatever is written.  **If the disk then
does not take it, the line is answered a second time**, for a disk that refuses,
and only that answer counts.
-/
namespace Bookmarks

/-- A run whose storage is open. -/
structure Session where
  program : Program
  source : Program.Source

namespace Session

open Host (Spot)

/-- What is at a place of the real disk. -/
def look (spot : Spot) : IO (Option Node) := do
  let path := (← IO.currentDir) / spot.path
  if ← path.isDir then return some (.directory true)
  if !(← path.pathExists) then return none
  match ← (IO.FS.readFile path).toBaseIO with
  | .ok text => return some (.file text)
  | .error _ => return some (.file (Text.lossy (← IO.FS.readBinFile path).toList))

/-- A picture of some places of the real disk. -/
def picture (spots : List Spot) : IO Disk := do
  let nodes ← spots.filterMapM fun spot => do return (← look spot).map fun node => (spot, node)
  return ⟨nodes⟩

/-- Does to the real disk what leads from one picture to another. -/
def apply (before after : Disk) : IO Unit := do
  for (spot, node) in after.nodes.reverse do
    if before.node? spot != some node then
      match node with
      | .directory _ => IO.FS.createDirAll spot.path
      | .file text => IO.FS.writeFile spot.path text
      | .device => pure ()
  for (spot, _) in before.nodes do
    if (after.node? spot).isNone then IO.FS.removeFile spot.path

/-- Finds the storage, and the application over it. -/
def start (program : Program) : IO (Session × Application) := do
  let disk ← picture program.settingsSpots
  let name := program.storageName disk
  let before ← picture (program.spots name)
  let (source, after) := program.openNamed before name
  apply before after
  match source with
  | none => throw (IO.userError ("cannot open " ++ name))
  | some source =>
    return (⟨program, source⟩, .start source.storage (program.settingsFile disk) (program.place disk))

/-- The application as it stands before a line: nothing is refused but what may not
be done, and the settings file may have changed. -/
def refresh (s : Session) (app : Application) : IO Application := do
  let disk ← picture s.program.settingsSpots
  return { app with storage := s.source.refreshed app.storage, place := s.program.place disk }

/-- Brings the disk up to date with an application.  If it does not take that, the
answer is the application of before on a disk that refuses. -/
def keep (s : Session) (before after : Application) : IO (Option Application) := do
  if after.storage.entries != before.storage.entries then
    let written ← (apply ⟨[]⟩ (s.source.keep ⟨[]⟩ after.storage)).toBaseIO
    if let .error _ := written then
      return some { before with storage := { before.storage with refusesWrites := true } }
  if after.place != before.place then
    let disk ← picture s.program.settingsSpots
    let path := s.program.settingsPath
    let written ← (apply disk (disk.putPlace s.program.directory path after.place)).toBaseIO
    if let .error _ := written then
      let place : Place := match before.place.text? with
        | some text => .fixed text text
        | none => .directory
      return some { before with place }
  return none

/-- Draws what the answer to a line may need. -/
def draw : IO Supply := do
  let now ← Std.Time.Timestamp.now
  let entropy ← IO.getRandomBytes (USize.ofNat Supply.entropySize)
  return Supply.ofEntropy now.toMillisecondsSinceUnixEpoch.val entropy.toList

/-- Answers a line. -/
def answer (s : Session) (server : Server) (line : String) : IO (Option String × Server) := do
  let server := { server with app := ← s.refresh server.app }
  let arrival : Arrival := ⟨line, ← IO.monoNanosNow, ← draw⟩
  let outcome := server.receive Cipher.standard s.program.explain arrival
  match ← s.keep server.app outcome.2.app with
  | none => return outcome
  | some refused => return { server with app := refused }.receive Cipher.standard s.program.explain arrival

/-- Writes a line. -/
def say (output : IO.FS.Stream) (line : String) : IO Unit := do
  output.putStr (line ++ "\n")
  output.flush

/-- Answers lines to the end of the input. -/
partial def converse (s : Session) (input output : IO.FS.Stream) (server : Server) : IO Server := do
  let chunk ← input.getLine
  if chunk.isEmpty then return server
  let (reply, server) ← s.answer server ((Server.lines chunk).headD "")
  if let some line := reply then say output line
  s.converse input output server

/-- The environment variables that matter here. -/
def variableNames : List String :=
  ["HOME", "TMPDIR", "XDG_CONFIG_HOME", "XDG_DATA_HOME", Server.dataVariable]

/-- What a run starts from. -/
def setting : IO Program := do
  let environment ← variableNames.filterMapM fun name => do
    return (← IO.getEnv name).map fun value => (name, value)
  return { environment, directory := Host.steps (Text.utf8 (← IO.currentDir).toString) }

end Session

end Bookmarks

open Bookmarks in
/-- Serves until the end of the input, then locks the vault and writes what is
left to be written. -/
def main : IO Unit := do
  let (session, app) ← Session.start (← Session.setting)
  let output ← IO.getStdout
  Session.say output Server.readyLine
  let server ← session.converse (← IO.getStdin) output (Server.start app (← IO.monoNanosNow))
  let last ← session.refresh server.app
  let _ ← session.keep last last.shutdown
