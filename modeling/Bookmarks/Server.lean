import Bookmarks.Call.Answer

/-! # The server

A host talks to the server in lines.  The first line of the server says that it is
ready; then every line that is not blank gets one line in answer, in order.  A
line that is no JSON value is answered as such and otherwise ignored; of the
others, no more than a fixed number is served within a second.
-/
namespace Bookmarks

/-- A limit on the number of requests in a window of time.  Requests are counted in
thirty-two bits. -/
structure Limiter where
  limit : UInt32
  windowStart : Nat
  count : UInt32
  deriving DecidableEq, Repr

namespace Limiter

/-- The length of a window, in nanoseconds. -/
def window : Nat := 1000000000

/-- A limiter whose first window starts now. -/
def new (limit : UInt32) (now : Nat) : Limiter := ⟨limit, now, 0⟩

/-- The limiter in the window that a time belongs to: a window that is over is
followed by one that starts when the clock is read again. -/
def advance (l : Limiter) (now again : Nat) : Limiter :=
  if l.windowStart + window ≤ now then { l with windowStart := again, count := 0 } else l

/-- Counts a request at a time, and says whether it may be served; a window that it
opens starts when the clock is read again. -/
def checkAt (l : Limiter) (now again : Nat) : Bool × Limiter :=
  let l := l.advance now again
  (decide (l.count + 1 ≤ l.limit), { l with count := l.count + 1 })

/-- Counts a request at a time that the clock still shows when it is read again. -/
def check (l : Limiter) (now : Nat) : Bool × Limiter := l.checkAt now now

end Limiter

/-- A line that comes in, with the time and the supply for answering it. -/
structure Arrival where
  line : String
  now : Nat
  supply : Supply

/-- The application behind its limiter. -/
structure Server where
  app : Application
  limiter : Limiter

namespace Server

/-- The requests that are served within a window. -/
def requestLimit : UInt32 := 200

/-- The version that the server tells. -/
def version : String := "0.3.0"

/-- The line that says that the server is ready. -/
def readyLine : String :=
  (Json.object [("event", .string "ready"), ("version", .string version)]).compact

/-- The server over an application, at a time. -/
def start (app : Application) (now : Nat) : Server := ⟨app, .new requestLimit now⟩

/-- An answer with a result. -/
def resultJson (id result : Json) : Json := .object [("id", id), ("result", result)]

/-- An answer with an error. -/
def errorJson (id : Json) (message : String) : Json := .object [("error", .string message), ("id", id)]

/-- What is told of a line that is no JSON value: what its reader finds wrong with it. -/
def parseErrorMessage (fault : String) : String := "parse error: " ++ fault

/-- What is told of a request that comes too soon. -/
def limitMessage : String := "rate limit exceeded"

/-- Answers a request. -/
def respond (cipher : Cipher) (s : Server) (now : Nat) (supply : Supply) (request : Json) : Json × Server :=
  let id := (request.get? "id").getD .null
  let (allowed, limiter) := s.limiter.check now
  let s := { s with limiter }
  if allowed then
    let method := ((request.get? "method").bind Json.asString?).getD ""
    let params := (request.get? "params").getD (.object [])
    match s.app.answer cipher supply method params with
    | (.ok result, app) => (resultJson id result, { s with app })
    | (.error e, app) => (errorJson id e.message, { s with app })
  else (errorJson id limitMessage, s)

/-- Answers a line, unless it is blank.  What is wrong with a line that is no JSON value is
explained in the words of whoever reads it. -/
def receive (cipher : Cipher) (explain : String → String) (s : Server) (a : Arrival) : Option String × Server :=
  if Text.isBlankText a.line then (none, s)
  else
    match Json.ofText? a.line with
    | none => (some (errorJson .null (parseErrorMessage (explain a.line))).compact, s)
    | some request =>
      let (answer, s) := s.respond cipher a.now a.supply request
      (some answer.compact, s)

/-- Answers lines, one after the other. -/
def receiveAll (cipher : Cipher) (explain : String → String) (s : Server) : List Arrival → List String × Server
  | [] => ([], s)
  | a :: arrivals =>
    let (answer, s) := s.receive cipher explain a
    let (answers, s) := receiveAll cipher explain s arrivals
    (answer.toList ++ answers, s)

/-- All lines that the server writes, and the application at the end of the
input. -/
def serve (cipher : Cipher) (explain : String → String) (app : Application) (now : Nat) (arrivals : List Arrival) :
    List String × Application :=
  let (answers, s) := (start app now).receiveAll cipher explain arrivals
  (readyLine :: answers, s.app.shutdown)

/-! ## Starting -/

/-- The variable that names the data directory directly. -/
def dataVariable : String := "LINKDECK_DATA_DIR"

/-- The data directory. -/
def dataDirectory (env : Environment) : String :=
  (env.lookup dataVariable).getD (Host.dataDirectory env)

/-- The settings at the start: those of the file, or the defaults if it cannot be
read. -/
def initialSettings (env : Environment) (place : Place) : SettingsFile :=
  ((SettingsFile.new (Host.settingsPath env)).load place).2

/-- The lines of an input; a carriage return before a line feed belongs to
neither. -/
def lines (input : String) : List String :=
  let pieces := Text.splitAt '\n' input.toList
  let ended := pieces.dropLast.map fun cs =>
    String.ofList (if cs.getLast? = some '\r' then cs.dropLast else cs)
  let rest := pieces.getLastD []
  ended ++ if rest.isEmpty then [] else [String.ofList rest]

end Server

end Bookmarks
