import SyntaxTally.Pipeline.Team

/-!
# Runs

A run counts one file or all files below a directory. Files that cannot be analysed are skipped, walk
errors are reported, and a crash ends the run.
-/
namespace SyntaxTally.Pipeline

open Files Walk

variable {σ : Type}

/-! ### One worker -/

/-- Deals with entries up to the first that breaks the run off. -/
def takeEntries (pipeline : Pipeline σ) (sum : Option Counts) (p : Progress σ) :
    List Entry → Except Halt (Option Counts) × Progress σ
  | [] => (.ok sum, p)
  | .file path :: rest =>
    match pipeline.takeFile p path with
    | (.ok (some counts), p) => pipeline.takeEntries (addTo sum counts) p rest
    | (.ok none, p) => pipeline.takeEntries sum p rest
    | (.error halt, p) => (.error halt, p)
  | .failure path fault :: rest =>
    match pipeline.takeError p path fault with
    | (none, p) => pipeline.takeEntries sum p rest
    | (some halt, p) => (.error halt, p)

/-- Deals with a walk. Nothing is looked at behind an entry that breaks the run off. -/
def takeBatches (pipeline : Pipeline σ) (sum : Option Counts) (p : Progress σ) :
    List Batch → Except Halt (Option Counts) × Progress σ
  | [] => (.ok sum, p)
  | batch :: rest =>
    match pipeline.takeEntries sum { p with logs := p.logs ++ batch.logs } batch.entries with
    | (.ok sum, p) => pipeline.takeBatches sum p rest
    | (.error halt, p) => (.error halt, p)

/-- A run of one worker, which walks depth first. -/
def runAlone (pipeline : Pipeline σ) (root : Path) (p : Progress σ) : Except RunFault Summary × Progress σ :=
  match scan pipeline.disk pipeline.walkOptions root with
  | .error crash => (.error ((Halt.crash crash).fault "Analysis failed"), p)
  | .ok batches =>
    match pipeline.takeBatches none p batches with
    | (.ok sum, p) => p.finish sum
    | (.error halt, p) => (.error (halt.fault "Analysis failed"), p)

/-! ### Several workers -/

/-- The team of a run, before its first step. -/
def firstTeam (pipeline : Pipeline σ) (root : Path) (p : Progress σ) : Team σ :=
  .begin (Walk.threads none pipeline.walkOptions) pipeline.workers p
    (start pipeline.disk pipeline.walkOptions root)

/-- A run of several workers. -/
def runTeam (pipeline : Pipeline σ) (root : Path) (p : Progress σ) : Except RunFault Summary × Progress σ :=
  let steps := Team.mostSteps pipeline.disk (Walk.threads none pipeline.walkOptions) pipeline.workers
  ((pipeline.firstTeam root p).run pipeline pipeline.capacity steps).outcome

/-! ### Runs -/

/-- The progress of a run that has only been announced. -/
def opening (pipeline : Pipeline σ) (root : Path) (state : σ) : Progress σ :=
  ({ state } : Progress σ).log .debug
    ("Analyzing " ++ root.toString ++ " with " ++ toString pipeline.workers ++ " worker(s)")

/-- Counts all files below a directory. -/
def runDirectory (pipeline : Pipeline σ) (root : Path) (state : σ) : Except RunFault Summary × Progress σ :=
  let p := pipeline.opening root state
  if pipeline.workers = 1 then pipeline.runAlone root p else pipeline.runTeam root p

/-- Counts one file, whose failure is that of the run. -/
def runFile (pipeline : Pipeline σ) (path : Path) (state : σ) : Except RunFault Summary × Progress σ :=
  let (outcome, logs, state) := pipeline.analyze path state
  let p : Progress σ := { state, logs }
  match outcome with
  | .counted counts => (.ok { counts, analyzed := 1 }, p)
  | .failed error => (.error (.file error), p)
  | .crashed crash => (.error (.halted (.crash crash)), p)
  | .interrupted crash => (.error (.halted (.interrupt crash)), p)

/-- Counts what a path names. -/
def run (pipeline : Pipeline σ) (path : Path) (state : σ) : Except RunFault Summary × Progress σ :=
  match pipeline.disk.lookup path with
  | .ok (_, .file _) => pipeline.runFile path state
  | .ok (_, .directory) => pipeline.runDirectory path state
  | .ok _ => (.error (.strangeInput path), { state })
  | .error fault =>
    (.error (if fault.isAbsence then .missingInput path else .system fault path), { state })

end SyntaxTally.Pipeline
