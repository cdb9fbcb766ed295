import Std.Data.HashSet
import Std.Time.Format
import SyntaxTally.CommandLine.Run

/-!
# The program

Reads what lies on the disk around the paths that the arguments name, runs the program on that, and writes what
it gives out.
-/
namespace SyntaxTally.Program

open Files

/-! ### Reading the disk -/

/-- What has been read so far. -/
structure Snapshot where
  items : List (Place × Item) := []
  known : Std.HashSet String := {}
  locked : List String := []
  sealed : List Place := []

abbrev Reader := StateT Snapshot IO

def pathOf (place : Place) : String := "/" ++ "/".intercalate place

def entryAt (place : Place) : IO.FS.DirEntry := ⟨pathOf place.dropLast, place.getLast?.getD "."⟩

/-- What a link leads to. A link that leads nowhere is given a target that does not exist. -/
def targetOf (place : Place) : IO String := do
  try
    let real ← IO.FS.realPath (pathOf place)
    pure real.toString
  catch _ => pure "/.missing"

/-- What lies at a place, and whether it may be searched or opened. -/
def itemAt? (place : Place) : IO (Option (Item × Bool)) := do
  try
    let info ← (entryAt place).path.symlinkMetadata
    match info.type with
    | .dir => pure (some (.directory, (← (entryAt (place ++ ["."])).path.metadata.toBaseIO).toOption.isSome))
    | .symlink => pure (some (.link (← targetOf place), true))
    | .file =>
      match ← (IO.FS.readBinFile (pathOf place)).toBaseIO with
      | .ok bytes => pure (some (.file bytes.toList, true))
      | .error _ => pure (some (.file [], false))
    | .other => pure (some (.socket, true))
  catch _ => pure none

/-- The names in a directory. One that may not be listed is noted under the names that calls can give it. -/
def namesAt (here : Place) (place : Place) : Reader (List String) := do
  try
    pure ((← (entryAt place).path.readDir).toList.map (·.fileName))
  catch _ =>
    let relative := "/".intercalate (place.drop here.length)
    modify fun s => { s with locked := [pathOf place, relative, "./" ++ relative] ++ s.locked }
    pure []

def isKnown (place : Place) : Reader Bool := do pure ((← get).known.contains (pathOf place))

def add (place : Place) (item : Item) : Reader Unit := do
  if ← isKnown place then pure ()
  else modify fun s => { s with items := (place, item) :: s.items, known := s.known.insert (pathOf place) }

/-- The places above a place, from the top. -/
def above (place : Place) : List Place := (List.range place.length).map place.take

/-- Reads what lies at a place, and in directories all below it. `deep` is false for a directory that is only on
the way, of which just the files are read that concern what lies below. -/
def readTree (here : Place) : Nat → Bool → Place → Reader Unit
  | 0, _, _ => pure ()
  | depth + 1, deep, place => do
    if (← isKnown place) && !deep then return
    match ← itemAt? place with
    | none => pure ()
    | some (item, isOpen) =>
      add place item
      if isOpen then pure () else modify fun s => { s with sealed := place :: s.sealed }
      match item with
      | .link target =>
        let real := Disk.normalized (Path.ofString target).parts
        for directory in above real do readTree here depth false directory
        if ← isKnown real then pure () else readTree here depth deep real
      | .directory =>
        let names ←
          if deep then namesAt here place
          else pure (".git" :: Settings.fileName :: Walk.ignoreFileNames)
        for name in names do
          if ← isKnown (place ++ [name]) then pure () else readTree here depth deep (place ++ [name])
      | _ => pure ()

/-- More than the components of any path. -/
def deepest : Nat := 4096

def readPath (here : Place) (deep : Bool) (place : Place) : Reader Unit := do
  for directory in above place do readTree here deepest false directory
  readTree here deepest deep place

/-- Reads what the arguments concern. -/
def readDisk (arguments : CommandLine.Arguments) (disk : Disk) : IO Disk := do
  let paths := [(true, some (Path.ofString arguments.path)), (false, arguments.config), (false, arguments.logFile)]
  let reader : Reader Unit := do
    for (deep, path) in paths do
      match path.map (Configuration.expandHome disk) with
      | some (.ok path) => readPath disk.here deep (disk.absolute path).parts
      | _ => pure ()
    readPath disk.here false disk.here
  let (_, snapshot) ← reader.run {}
  let full := snapshot.items.reverse.foldl (fun disk (place, item) => disk.put place item) disk
  pure { full with locked := snapshot.locked, sealed := snapshot.sealed }

/-! ### Running -/

/-- The number of processors, where the system tells it. -/
def processors : IO (Option Nat) := do
  try
    let lines ← IO.FS.lines "/proc/cpuinfo"
    pure (some (lines.filter (·.startsWith "processor")).size)
  catch _ => pure none

/-- The width of the terminal. -/
def columns : IO Nat := do
  match (← IO.getEnv "COLUMNS").bind fun text => Text.integer? text.toList with
  | some n => pure (if 0 < n then n.toNat else 80)
  | none => pure 80

def surroundings (arguments : List String) : IO CommandLine.Surroundings := do
  let here := (Path.ofString (← IO.currentDir).toString).parts
  let empty : Disk :=
    { items := [], here, home := (← IO.getEnv "HOME").getD "/", locked := [], sealed := [], tree := .nil }
  let disk ←
    match CommandLine.Arguments.read arguments with
    | .ok arguments => readDisk arguments empty
    | .error _ => pure empty
  let now ← Std.Time.PlainDateTime.now
  pure { disk, processors := ← processors, columns := ← columns, time := now.format "uuuu-MM-dd HH:mm:ss,SSS" }

/-- Writes what was added to files. -/
def writeFiles (before after : Disk) : IO Unit := do
  for (place, item) in after.items do
    match item, before.item? place with
    | .file bytes, some (.file old) =>
      if old.length < bytes.length then append place (bytes.drop old.length)
    | .file bytes, _ => append place bytes
    | _, _ => pure ()
where
  append (place : Place) (bytes : List UInt8) : IO Unit := do
    let file ← IO.FS.Handle.mk (pathOf place) .append
    file.write ⟨bytes.toArray⟩

/-- What is shown of a failure. -/
def failureText : CommandLine.Failure → String
  | .logFile fault path => fault.message path.toString
  | .settings fault => fault.message
  | .run fault => fault.message
  | .table crash => crash.message

end SyntaxTally.Program

open SyntaxTally SyntaxTally.Program in
/-- Runs the program and gives its exit code. -/
def main (arguments : List String) : IO UInt32 := do
  let around ← surroundings arguments
  let output := CommandLine.run CommandLine.ownTools around arguments
  writeFiles around.disk output.disk
  IO.print output.out
  IO.eprint output.err
  match output.ending with
  | .exit code => pure code.toUInt32
  | .failure failure =>
    IO.eprintln (failureText failure)
    pure 1
