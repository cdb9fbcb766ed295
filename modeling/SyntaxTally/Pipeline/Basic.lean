import SyntaxTally.Analyzer
import SyntaxTally.Settings
import SyntaxTally.Walk.Scan

/-!
# Parts of a run

What a run is given, what it tells on its way, and what it does with one file and with one entry of a walk.
-/
namespace SyntaxTally

open Files Walk

structure Summary where
  counts : Counts
  analyzed : Nat := 0
  skipped : Nat := 0
  walkErrors : Nat := 0
  deriving DecidableEq

/-- Why a run gave no summary. -/
inductive RunFault where
  | missingInput (path : Path)
  | strangeInput (path : Path)
  | noFiles
  /-- A task of the run crashed; what the run was doing is told. -/
  | worker (doing : String) (crash : Crash)
  /-- The only file could not be analysed. -/
  | file (error : AnalysisError)
  | halted (halt : Halt)
  | system (fault : Fault) (path : Path)
  deriving DecidableEq

def RunFault.message : RunFault → String
  | missingInput path => "Path does not exist: " ++ path.toString
  | strangeInput path => "Path is not a file or directory: " ++ path.toString
  | noFiles => "No files to analyze"
  | worker doing crash => doing ++ ": " ++ crash.shown
  | file error => error.fault.message
  | halted (.crash crash) => crash.message
  | halted (.interrupt crash) => crash.message
  | system fault path => fault.message path.toString

/-- The fault of a run that was broken off while doing something. -/
def Halt.fault (doing : String) : Halt → RunFault
  | crash cause => .worker doing cause
  | interrupt cause => .halted (.interrupt cause)

/-- An analyser with a state of its own. -/
abbrev FileAnalyzer (σ : Type) := Path → σ → Outcome × List Log.Record × σ

/-- What a run needs to know. -/
structure Pipeline (σ : Type) where
  disk : Disk
  settings : Settings
  processors : Option Nat
  analyze : FileAnalyzer σ
  /-- What the receiver of skipped files does: it may break off. -/
  onSkip : Path → AnalysisError → Option Halt := fun _ _ => none
  /-- What the receiver of walk errors does: it may break off. -/
  onWalkError : Entry → Option Halt := fun _ => none

/-- What has happened in a run so far. -/
structure Progress (σ : Type) where
  state : σ
  analyzed : Nat := 0
  skips : List (Path × AnalysisError) := []
  walkErrors : List Entry := []
  logs : List Log.Record := []

/-- Adds counts to a sum that may not have begun. -/
def addTo (sum : Option Counts) (counts : Counts) : Option Counts :=
  some (match sum with
    | none => counts
    | some sum => sum.combine counts)

namespace Progress

variable {σ : Type}

def log (p : Progress σ) (level : Log.Level) (text : String) : Progress σ :=
  { p with logs := p.logs ++ [⟨level, "pipeline", text⟩] }

/-- The end of a run that was not broken off. -/
def finish (p : Progress σ) : Option Counts → Except RunFault Summary × Progress σ
  | none => (.error .noFiles, p)
  | some counts =>
    let summary : Summary := ⟨counts, p.analyzed, p.skips.length, p.walkErrors.length⟩
    (.ok summary, p.log .info ("Analyzed " ++ toString summary.analyzed ++ " file(s), skipped " ++
      toString summary.skipped ++ ", " ++ toString summary.walkErrors ++ " walk error(s)"))

end Progress

namespace Pipeline

variable {σ : Type}

def walkOptions (pipeline : Pipeline σ) : Options where
  followLinks := pipeline.settings.walk.followLinks
  hidden := pipeline.settings.walk.hidden
  excluded := pipeline.settings.walk.excludePaths
  threads := pipeline.settings.effectiveWalkThreads pipeline.processors

/-- How many workers there are. -/
def workers (pipeline : Pipeline σ) : Nat := pipeline.settings.effectiveWorkers pipeline.processors

/-- How many files and end marks the queue of the workers holds. -/
def capacity (pipeline : Pipeline σ) : Nat := pipeline.settings.effectiveQueueSize pipeline.processors

/-- Analyses one file of a walk. A file that is skipped gives no counts. -/
def takeFile (pipeline : Pipeline σ) (p : Progress σ) (path : Path) : Except Halt (Option Counts) × Progress σ :=
  let (outcome, logs, state) := pipeline.analyze path p.state
  let p := { p with state, logs := p.logs ++ logs }
  match outcome with
  | .counted counts => (.ok (some counts), { p with analyzed := p.analyzed + 1 })
  | .failed error =>
    let p := p.log .debug ("Skipped " ++ path.toString ++ ": " ++ error.fault.message)
    let p := { p with skips := p.skips ++ [(path, error)] }
    match pipeline.onSkip path error with
    | none => (.ok none, p)
    | some halt => (.error halt, p)
  | .crashed crash => (.error (.crash crash), p)
  | .interrupted crash => (.error (.interrupt crash), p)

/-- Notes an error of the walk. -/
def takeError (pipeline : Pipeline σ) (p : Progress σ) (path : Path) (fault : ReadFault) :
    Option Halt × Progress σ :=
  let p := p.log .warning (path.toString ++ ": " ++ fault.message)
  (pipeline.onWalkError (.failure path fault),
    { p with walkErrors := p.walkErrors ++ [.failure path fault] })

end Pipeline

end SyntaxTally
