import SyntaxTally.CommandLine.Arguments
import SyntaxTally.CommandLine.Tools
import SyntaxTally.CommandLine.Usage
import SyntaxTally.Log.Sink
import SyntaxTally.Pipeline.Run

/-!
# Runs of the program

What the program writes and how it ends, for the arguments it is given and what it finds around it.
-/
namespace SyntaxTally

open Files

/-- The fault is told to the user. Other faults end the program. -/
def RunFault.isTold : RunFault → Bool
  | missingInput _ | strangeInput _ | noFiles | worker _ _ | file _ => true
  | halted (.crash crash) => crash.kind = "ValueError"
  | halted (.interrupt _) | system _ _ => false

namespace CommandLine

/-! ### Settings -/

/-- Where the settings are: they are named, or they belong to the directory that is analysed. -/
def Arguments.settingsPath (arguments : Arguments) (disk : Disk) : Except SettingsFault Path := do
  match arguments.config with
  | some path => .ok path
  | none =>
    let target := Path.ofString arguments.path
    if ← (disk.isDirectory target).mapError (.system · target) then .ok target else .ok target.parent

/-- What the arguments say comes before what the settings say. -/
def Arguments.override (arguments : Arguments) (settings : Settings) : Settings :=
  { settings with
    workers := arguments.workers <|> settings.workers
    showSkipped := arguments.skipped || settings.showSkipped
    tableWidth := arguments.width.getD settings.tableWidth
    walk := { settings.walk with
      followLinks := arguments.followLinks || settings.walk.followLinks
      hidden := arguments.hidden || settings.walk.hidden
      threads := arguments.walkThreads <|> settings.walk.threads } }

def Arguments.configuration (arguments : Arguments) (read : Yaml.Reader) (disk : Disk) :
    Except SettingsFault Configuration := do
  let configuration ← Configuration.load read disk (← arguments.settingsPath disk)
  .ok { configuration with settings := arguments.override configuration.settings }

/-! ### Output -/

/-- What the program finds around it. -/
structure Surroundings where
  disk : Disk
  processors : Option Nat
  /-- The width of the terminal. -/
  columns : Nat
  /-- The time that the log shows. -/
  time : String

/-- What ends the program without its doing. -/
inductive Failure where
  | logFile (fault : Fault) (path : Path)
  | settings (fault : SettingsFault)
  | run (fault : RunFault)
  | table (crash : Crash)

inductive Ending where
  | exit (code : Nat)
  | failure (failure : Failure)

/-- What the program has written, and how it ended. -/
structure Output where
  out : String := ""
  err : String := ""
  ending : Ending
  disk : Disk

/-- A message of the program itself. -/
def notice (text : String) : String := programName ++ ": " ++ text ++ "\n"

/-- The output if there is nothing to run. -/
def Stop.output (stop : Stop) (around : Surroundings) : Output :=
  match stop with
  | .help => { out := helpText around.columns, ending := .exit 0, disk := around.disk }
  | .version => { out := programName ++ " " ++ programVersion ++ "\n", ending := .exit 0, disk := around.disk }
  | .refused fault =>
    { err := usageText around.columns ++ notice ("error: " ++ fault.message), ending := .exit 2, disk := around.disk }

def skipLine (path : Path) (error : AnalysisError) : String :=
  "Skipped " ++ path.toString ++ ": " ++ error.fault.message ++ "\n"

/-- The output of a run on a disk: what was skipped, if that is asked for, the log and the counts. -/
def runOutput (tools : Tools) (around : Surroundings) (logging : Log.Logging) (settings : Settings)
    (languages : List Language) (path : Path) : Output :=
  let pipeline : Pipeline (QueryCache tools.engine) := {
    disk := around.disk
    settings
    processors := around.processors
    analyze := Analyzer.analyze tools.engine (Support.ofEnabled languages) around.disk }
  let (result, progress) := pipeline.run path Cache.empty
  let events := progress.logs.map fun record => ⟨record, Log.workerOf Log.firstThread, around.time⟩
  let (console, disk) := logging.emitAll events around.disk
  let skips :=
    if settings.showSkipped then String.join (progress.skips.map fun (path, error) => skipLine path error) else ""
  match result with
  | .error fault =>
    if fault.isTold then { out := skips, err := console ++ notice fault.message, ending := .exit 1, disk }
    else { out := skips, err := console, ending := .failure (.run fault), disk }
  | .ok summary =>
    match Report.table tools.painter summary.counts settings.tableWidth.toNat around.columns with
    | .error crash => { out := skips, err := console, ending := .failure (.table crash), disk }
    | .ok lines =>
      { out := skips ++ linesText (lines.map String.ofList), err := console, ending := .exit 0, disk }

/-- The output for arguments that ask for a run, once logging is set up. -/
def Arguments.output (arguments : Arguments) (tools : Tools) (around : Surroundings) (logging : Log.Logging) :
    Output :=
  match arguments.configuration tools.readValue around.disk with
  | .error fault =>
    if fault.isTold then { err := notice fault.message, ending := .exit 1, disk := around.disk }
    else { ending := .failure (.settings fault), disk := around.disk }
  | .ok ⟨_, settings⟩ =>
    match enabledLanguages (if settings.languages.isEmpty then none else some settings.languages) with
    | .error unknown => { err := notice unknown.message, ending := .exit 1, disk := around.disk }
    | .ok languages => runOutput tools around logging settings languages (Path.ofString arguments.path)

/-- Runs the program. -/
def run (tools : Tools) (around : Surroundings) (arguments : List String) : Output :=
  match Arguments.read arguments with
  | .error stop => stop.output around
  | .ok arguments =>
    match Log.Logging.configure around.disk arguments.verbose arguments.logFile with
    | (_, .error (fault, path)) => { ending := .failure (.logFile fault path), disk := around.disk }
    | (logging, .ok disk) => arguments.output tools { around with disk } logging

end CommandLine

end SyntaxTally
