import SyntaxTally.Pipeline.Basic
import SyntaxTally.Walk.Shared

/-!
# Runs with several workers

A walk feeds the files into a queue of limited size, from which the workers take them; each worker adds up the
counts of its own files. At the end of the walk there is an end mark in the queue for each worker. The tasks
that are done are collected one after the other. The first that failed cancels the run: then nothing is put
into the queue or taken out of it any more, and the run ends when all tasks have ended. A step is what one
actor does while the others stand still.
-/
namespace SyntaxTally

open Files Walk

/-- What a worker is at, with the sum of its counts so far. -/
inductive Worker where
  | waiting (sum : Option Counts)
  | analyzing (path : Path) (sum : Option Counts)
  | done (sum : Option Counts)
  | failed (halt : Halt)
  deriving DecidableEq

/-- What the task that feeds the queue is at. -/
inductive Feeder where
  | walking
  /-- The walk has ended, perhaps broken off, and so many end marks are left to place. -/
  | closing (marks : Nat) (halt : Option Halt)
  | done
  | failed (halt : Halt)
  deriving DecidableEq

/-- How a task has ended. -/
inductive Ended where
  | well (sum : Option Counts)
  | badly (halt : Halt)

def Worker.ended? : Worker → Option Ended
  | waiting _ | analyzing _ _ => none
  | done sum => some (.well sum)
  | failed halt => some (.badly halt)

def Feeder.ended? : Feeder → Option Ended
  | walking | closing _ _ => none
  | done => some (.well none)
  | failed halt => some (.badly halt)

inductive Task where
  | feeder
  | worker (i : Nat)
  deriving DecidableEq

/-- Who makes a step. -/
inductive Actor where
  | walker (i : Nat)
  /-- Sends the walking threads home. -/
  | closer
  | feeder
  | worker (i : Nat)
  /-- Collects a task that has ended. -/
  | collector (task : Task)
  deriving DecidableEq

structure Team (σ : Type) where
  walk : SharedWalk
  feeder : Feeder := .walking
  /-- Files that no worker has taken, then the end marks. -/
  work : List (Option Path) := []
  workers : List Worker
  cancelled : Bool := false
  /-- The tasks that are collected. -/
  collected : List Task := []
  /-- The sums of the workers that are collected. -/
  sums : List Counts := []
  /-- Why the run is cancelled. -/
  halt : Option Halt := none
  progress : Progress σ

namespace Team

variable {σ : Type}

def ended? (team : Team σ) : Task → Option Ended
  | .feeder => team.feeder.ended?
  | .worker i => (team.workers[i]?).bind Worker.ended?

def tasks (team : Team σ) : List Task := .feeder :: (List.range team.workers.length).map .worker

/-- All tasks have ended, and all are collected unless the run is cancelled. -/
def isOver (team : Team σ) : Bool :=
  team.tasks.all (fun task => (team.ended? task).isSome) &&
    (team.halt.isSome || team.tasks.all team.collected.contains)

def hasRoom (capacity : Nat) (team : Team σ) : Bool := team.work.length < capacity

def setWorker (team : Team σ) (i : Nat) (worker : Worker) : Team σ :=
  { team with workers := team.workers.set i worker }

/-! ### Steps -/

/-- What the walk gives: errors are noted, and files are put into the queue once there is room. -/
def receiver (pipeline : Pipeline σ) (capacity : Nat) : Receiver (Team σ)
  | team, .failure path fault =>
    let (halt, progress) := pipeline.takeError team.progress path fault
    let team := { team with progress }
    match halt with
    | some (.crash crash) => some (.fail crash, team)
    | some (.interrupt crash) => some (.interrupt crash, team)
    | none => some (if team.cancelled then .stop else .goOn, team)
  | team, .file path =>
    if team.cancelled then some (.stop, team)
    else if team.hasRoom capacity then some (.goOn, { team with work := team.work ++ [some path] })
    else none

def walkerStep? (pipeline : Pipeline σ) (capacity : Nat) (team : Team σ) (i : Nat) : Option (Team σ) :=
  (team.walk.step? pipeline.disk pipeline.walkOptions (receiver pipeline capacity) team i).map
    fun (walk, team, logs) =>
      { team with walk, progress := { team.progress with logs := team.progress.logs ++ logs } }

def endFeeder : Option Halt → Feeder
  | none => .done
  | some halt => .failed halt

def feederStep? (capacity : Nat) (team : Team σ) : Option (Team σ) :=
  match team.feeder with
  | .walking =>
    if team.walk.isOver then some { team with feeder := .closing team.workers.length team.walk.ending }
    else none
  | .closing 0 halt => some { team with feeder := endFeeder halt }
  | .closing (marks + 1) halt =>
    if team.cancelled then some { team with feeder := endFeeder halt }
    else if team.hasRoom capacity then
      some { team with work := team.work ++ [none], feeder := .closing marks halt }
    else none
  | .done | .failed _ => none

def workerStep? (pipeline : Pipeline σ) (team : Team σ) (i : Nat) : Option (Team σ) :=
  match team.workers[i]? with
  | some (.waiting sum) =>
    if team.cancelled then some (team.setWorker i (.done sum))
    else match team.work with
      | [] => none
      | none :: rest => some ({ team with work := rest }.setWorker i (.done sum))
      | some path :: rest => some ({ team with work := rest }.setWorker i (.analyzing path sum))
  | some (.analyzing path sum) =>
    match pipeline.takeFile team.progress path with
    | (.ok (some counts), progress) => some ({ team with progress }.setWorker i (.waiting (addTo sum counts)))
    | (.ok none, progress) => some ({ team with progress }.setWorker i (.waiting sum))
    | (.error halt, progress) => some ({ team with progress }.setWorker i (.failed halt))
  | some (.done _) | some (.failed _) | none => none

def collectorStep? (team : Team σ) (task : Task) : Option (Team σ) :=
  if team.halt.isSome || team.collected.contains task then none
  else
    (team.ended? task).map fun
      | .well sum => { team with collected := team.collected ++ [task], sums := team.sums ++ sum.toList }
      | .badly halt => { team with collected := team.collected ++ [task], halt := some halt, cancelled := true }

/-- One step of an actor, if it has one. -/
def step? (pipeline : Pipeline σ) (capacity : Nat) (team : Team σ) : Actor → Option (Team σ)
  | .walker i => team.walkerStep? pipeline capacity i
  | .closer => team.walk.close?.map fun walk => { team with walk }
  | .feeder => team.feederStep? capacity
  | .worker i => team.workerStep? pipeline i
  | .collector task => team.collectorStep? task

/-! ### One way to run -/

def actors (team : Team σ) : List Actor :=
  team.tasks.map .collector ++ (List.range team.workers.length).map .worker ++ [.feeder]
    ++ (List.range team.walk.walkers.length).map .walker ++ [.closer]

/-- Runs until no actor has a step, the first actor that has one always making it. -/
def run (pipeline : Pipeline σ) (capacity : Nat) : Nat → Team σ → Team σ
  | 0, team => team
  | fuel + 1, team =>
    match team.actors.findSome? (team.step? pipeline capacity) with
    | some team => run pipeline capacity fuel team
    | none => team

/-- What the run gives when it is over. -/
def outcome (team : Team σ) : Except RunFault Summary × Progress σ :=
  match team.halt with
  | some halt => (.error (halt.fault "Worker task failed"), team.progress)
  | none => team.progress.finish (Counts.reduce team.sums)

/-- More than the steps of any run: those of the walk, two for each file, and a few for each task. -/
def mostSteps (disk : Disk) (threads workers : Nat) : Nat :=
  SharedWalk.mostSteps disk threads + 2 * disk.items.length + 8 * (workers + 2)

/-- A walk that is over before anything is walked. -/
def noWalk : SharedWalk := { queue := [], unfinished := 0, walkers := [], visited := [], marks := some 0 }

/-- A team before its first step. A root that is no directory is the only file. If the walk cannot be started, there
are only the end marks left to place. -/
def begin (threads workers : Nat) (progress : Progress σ) : Except Crash Start → Team σ
  | .ok (.single path) =>
    { walk := noWalk, work := [some path], workers := List.replicate workers (.waiting none), progress }
  | .ok (.tree job visited logs) =>
    { walk := .begin threads job visited
      workers := List.replicate workers (.waiting none)
      progress := { progress with logs := progress.logs ++ logs } }
  | .error crash =>
    { walk := noWalk, feeder := .closing workers (some (.crash crash))
      workers := List.replicate workers (.waiting none), progress }

end Team

end SyntaxTally
