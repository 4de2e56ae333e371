import Reckon.Session.Batch
import Reckon.Disk.Basic

/-!
# Lines from texts and files

A text is read as lines the way a buffered line scanner reads it: it is split at line feeds, a
carriage return just before a feed is dropped, and a final feed ends the last line rather than
starting an empty one. The scanner's buffer holds 64 KiB; a line that does not fit in it with
its feed stops the reading with `bufio.Scanner: token too long`, and no line of the text is
processed.

Files are processed in order against one session, so a rule defined in one file is seen by the
next. The first file that cannot be opened or read stops the run; its error is reported, and
the lines of the files before it keep their results.
-/

namespace Reckon

/-- The results of a run of lines, the events of the run, and the error that stopped it. -/
structure Run where
  results : List LineResult
  events : List Event
  error : Option String

namespace Input

/-- The size of the line scanner's buffer. -/
def bufferSize : Nat := 65536

/-- The message of a line too long for the scanner. -/
def tooLong : String := "bufio.Scanner: token too long"

/-- A line without the carriage return that may end it. -/
def dropReturn (line : String) : String :=
  if line.endsWith "\r" then (line.dropEnd 1).toString else line

/-- The lines of a text, or the scanner's error. -/
def scanLines (text : String) : Except String (List String) :=
  let pieces := text.splitOn "\n"
  let pieces := if pieces.getLast? == some "" then pieces.dropLast else pieces
  if pieces.any (fun p => p.utf8ByteSize ≥ bufferSize) then .error tooLong
  else .ok (pieces.map dropReturn)

end Input

namespace Session

/-- All lines in order, unless the run was cancelled before its first line. -/
def processBatch (s : Session) (lines : List String) (cancelled : Bool) : Run × Session :=
  if cancelled && !lines.isEmpty then (⟨[], [], some "context canceled"⟩, s)
  else
    let ((rs, evs), s) := s.processLines lines
    (⟨rs, evs, none⟩, s)

/-- The lines of a text in order. -/
def processText (s : Session) (text : String) : Run × Session :=
  match Input.scanLines text with
  | .error e => (⟨[], [], some e⟩, s)
  | .ok lines => s.processBatch lines false

/-- The lines of one file, each result naming the file. -/
def processFile (s : Session) (d : Disk) (path : String) : Run × Session :=
  match d.openable path with
  | .error e => (⟨[], [], some ("error accessing " ++ path ++ ": " ++ e)⟩, s)
  | .ok () =>
    match d.read path with
    | .error e => (⟨[], [], some e⟩, s)
    | .ok text =>
      let (run, s) := s.processText text
      ({ run with results := run.results.map fun r => { r with source := path } }, s)

/-- The files in order against one session, up to the first that fails. -/
def processFiles (s : Session) (d : Disk) : List String → Run × Session
  | [] => (⟨[], [], none⟩, s)
  | path :: rest =>
    let (run, s) := s.processFile d path
    match run.error with
    | some e => ({ run with events := run.events ++ [.fileFailed path e] }, s)
    | none =>
      let (more, s) := s.processFiles d rest
      (⟨run.results ++ more.results, run.events ++ more.events, more.error⟩, s)

end Session

end Reckon
