import SyntaxTally.Files.Disk
import SyntaxTally.Log.Record

/-!
# Where log records go

Records are written to the console and, if one is named, to a file. The console shows what its level asks for;
the file gets every record, with the time and the worker it comes from.
-/
namespace SyntaxTally.Log

open Files

/-- A record as it is given out. -/
structure Event where
  record : Record
  worker : String
  time : String

/-- The thread that a program starts with. -/
def firstThread : String := "MainThread"

/-- How a thread is named in the log. -/
def workerOf (thread : String) : String := if thread = firstThread then "main" else thread

/-! ### Layouts -/

/-- A part of a line. -/
inductive Piece where
  | fixed (text : String)
  | time
  | level
  | logger
  | worker
  | message

namespace Piece

/-- The piece as formats write it. -/
def pattern : Piece → String
  | fixed text => text
  | time => "%(asctime)s"
  | level => "%(levelname)s"
  | logger => "%(name)s"
  | worker => "%(worker)s"
  | message => "%(message)s"

def shown (event : Event) : Piece → String
  | fixed text => text
  | time => event.time
  | level => event.record.level.name
  | logger => loggerName event.record.part
  | worker => event.worker
  | message => event.record.text

end Piece

abbrev Layout := List Piece

namespace Layout

def pattern (layout : Layout) : String := String.join (layout.map Piece.pattern)

/-- The line of an event. -/
def line (layout : Layout) (event : Event) : String := String.join (layout.map (Piece.shown event)) ++ "\n"

def bare : Layout := [.message]

def brief : Layout := [.fixed "[querytally] ", .level, .fixed " ", .message]

def tagged : Layout := [.fixed "[querytally] ", .level, .fixed " (", .worker, .fixed ") ", .message]

def full : Layout :=
  [.time, .fixed " ", .level, .fixed " ", .logger, .fixed " (", .worker, .fixed "): ", .message]

end Layout

/-! ### Sinks -/

inductive Target where
  | console
  | file (place : Place)

structure Sink where
  target : Target
  level : Level
  layout : Layout

/-- What is logged, and where. -/
structure Logging where
  level : Level
  sinks : List Sink

namespace Logging

/-- Before anything is set up, warnings are shown with their text alone. -/
def initial : Logging := ⟨.warning, [⟨.console, .warning, .bare⟩]⟩

def toConsole (verbose : Bool) : Logging :=
  let level : Level := if verbose then .debug else .info
  ⟨level, [⟨.console, level, if verbose then .tagged else .brief⟩]⟩

/-- The file gets everything, so that everything is logged. -/
def alsoTo (logging : Logging) (place : Place) : Logging :=
  ⟨.debug, logging.sinks ++ [⟨.file place, .debug, .full⟩]⟩

/-- Sets logging up. The console is set up even if the file cannot be opened. -/
def configure (disk : Disk) (verbose : Bool) (file : Option Path) : Logging × Except (Fault × Path) Disk :=
  let logging := toConsole verbose
  match file with
  | none => (logging, .ok disk)
  | some path =>
    let path := disk.absolute path
    match disk.openEnd path with
    | .ok (place, disk) => (logging.alsoTo place, .ok disk)
    | .error fault => (logging, .error (fault, path))

/-- Writes an event to a sink: what the console shows, and the disk. -/
def write (event : Event) (written : String × Disk) (sink : Sink) : String × Disk :=
  if event.record.level.number < sink.level.number then written
  else
    let line := sink.layout.line event
    match sink.target with
    | .console => (written.1 ++ line, written.2)
    | .file place => (written.1, written.2.append place (Text.encodeUtf8 line.toList))

/-- Gives an event out. -/
def emit (logging : Logging) (event : Event) (disk : Disk) : String × Disk :=
  if event.record.level.number < logging.level.number then ("", disk)
  else logging.sinks.foldl (write event) ("", disk)

/-- Gives events out in their order. -/
def emitAll (logging : Logging) (events : List Event) (disk : Disk) : String × Disk :=
  events.foldl (fun (console, disk) event =>
    let (more, disk) := logging.emit event disk
    (console ++ more, disk)) ("", disk)

end Logging

end SyntaxTally.Log
