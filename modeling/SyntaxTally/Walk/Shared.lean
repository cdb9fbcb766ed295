import SyntaxTally.Walk.Scan

/-!
# Walks with several threads

The threads share one queue of directories. Each takes a directory, lists it name by name, queues the
directories in it, gives its entries to a receiver and marks the directory done. The queue counts what was put
into it and is not marked done. When that count has come down to zero, every thread is sent home with an end
mark. A crash of the receiver stops the walk. An interrupt only ends the thread that met it, and the others go on;
if none is left while jobs are queued, nobody will ever take these. A step is what one thread does while the others
stand still, so that each way in which the threads can run is a sequence of steps.
-/
namespace SyntaxTally.Walk

open Files Ignore

/-- What the receiver of an entry answers. -/
inductive Reply where
  | goOn
  | stop
  | fail (crash : Crash)
  /-- A failure that no thread catches. -/
  | interrupt (crash : Crash)
  deriving DecidableEq

/-- Takes entries and has a state of its own. A thread waits as long as its entry is not taken. -/
abbrev Receiver (σ : Type) := σ → Entry → Option (Reply × σ)

/-- What a thread of the walk is at. -/
inductive Walker where
  | waiting
  /-- A job is taken, and nothing done about it yet. -/
  | holding (job : Job)
  /-- The names that are left, and what the others gave. -/
  | listing (job : Job) (scopes : List Scope) (names : List String) (jobs : List Job) (entries : List Entry)
  | queueing (jobs : List Job) (entries : List Entry)
  | giving (entries : List Entry)
  /-- An entry was not answered by going on, perhaps by a crash, and the other threads are not told yet. -/
  | stopping (crash : Option Crash)
  /-- An entry was answered by an interrupt, and its job is not marked done yet. -/
  | breaking (crash : Crash)
  | ended
  /-- The thread was ended by an interrupt. -/
  | lost (crash : Crash)
  deriving DecidableEq

namespace Walker

def isOver : Walker → Bool
  | ended | lost _ => true
  | _ => false

/-- The interrupt that ended the thread. -/
def interrupt? : Walker → Option Crash
  | lost crash => some crash
  | _ => none

end Walker

structure SharedWalk where
  /-- The jobs that no thread has taken, then the end marks. -/
  queue : List (Option Job)
  /-- How many jobs and end marks were put into the queue and are not marked done. -/
  unfinished : Nat
  walkers : List Walker
  /-- The directories entered so far, kept only when links are followed. -/
  visited : List Place
  /-- Some entry was not answered by going on: no further directory is listed. -/
  stopped : Bool := false
  /-- How many end marks are still to be queued, once all jobs are done. -/
  marks : Option Nat := none
  crashes : List Crash := []

namespace SharedWalk

def begin (threads : Nat) (job : Job) (visited : List Place) : SharedWalk :=
  { queue := [some job], unfinished := 1, walkers := List.replicate threads .waiting, visited }

/-- All jobs were done, all end marks are queued, and no thread is left. -/
def isOver (walk : SharedWalk) : Bool := walk.marks = some 0 && walk.walkers.all Walker.isOver

/-- What a walk that is over ends with: an interrupt of one of its threads, or else its first crash. -/
def ending (walk : SharedWalk) : Option Halt :=
  match walk.walkers.findSome? Walker.interrupt? with
  | some crash => some (.interrupt crash)
  | none => walk.crashes.head?.map .crash

def setWalker (walk : SharedWalk) (i : Nat) (walker : Walker) : SharedWalk :=
  { walk with walkers := walk.walkers.set i walker }

/-- Puts a job or an end mark into the queue. -/
def put (walk : SharedWalk) (item : Option Job) : SharedWalk :=
  { walk with queue := walk.queue ++ [item], unfinished := walk.unfinished + 1 }

/-- Marks what a thread has taken from the queue as done. -/
def markDone (walk : SharedWalk) : SharedWalk := { walk with unfinished := walk.unfinished - 1 }

/-- Waits until all jobs are done, and then queues an end mark for each thread. -/
def close? (walk : SharedWalk) : Option SharedWalk :=
  match walk.marks with
  | none => if walk.unfinished = 0 then some { walk with marks := some walk.walkers.length } else none
  | some 0 => none
  | some (left + 1) => some { walk.put none with marks := some left }

/-- Takes the first job from the queue, or goes home. -/
def take? (walk : SharedWalk) (i : Nat) : Option SharedWalk :=
  match walk.queue with
  | [] => none
  | none :: rest => some ({ walk with queue := rest }.markDone.setWalker i .ended)
  | some job :: rest => some ({ walk with queue := rest }.setWalker i (.holding job))

/-- Begins to list a directory, unless the walk is stopped. -/
def openJob (disk : Disk) (options : Options) (walk : SharedWalk) (i : Nat) (job : Job) : SharedWalk :=
  if walk.stopped then walk.markDone.setWalker i .waiting
  else
    let (rules, failures) := readRules disk job.path
    walk.setWalker i (.listing job (scopesIn options job rules) (listedNames disk job) []
      (failures ++ barredEntry disk job))

/-- Gives an entry to the receiver. -/
def give? {σ : Type} (receiver : Receiver σ) (walk : SharedWalk) (state : σ) (i : Nat) (entry : Entry)
    (rest : List Entry) : Option (SharedWalk × σ) :=
  (receiver state entry).map fun
    | (.goOn, state) => (walk.setWalker i (.giving rest), state)
    | (.stop, state) => (walk.setWalker i (.stopping none), state)
    | (.fail crash, state) => (walk.setWalker i (.stopping (some crash)), state)
    | (.interrupt crash, state) => (walk.setWalker i (.breaking crash), state)

/-- Lets the other threads know that the walk is stopped. -/
def stop (walk : SharedWalk) (crash : Option Crash) : SharedWalk :=
  { walk with stopped := true, crashes := walk.crashes ++ crash.toList }

/-- One step of a thread, if it has one, with what it logs. -/
def step? {σ : Type} (disk : Disk) (options : Options) (receiver : Receiver σ) (walk : SharedWalk) (state : σ)
    (i : Nat) : Option (SharedWalk × σ × List Log.Record) :=
  match walk.walkers[i]? with
  | none | some .ended | some (.lost _) => none
  | some .waiting => (walk.take? i).map fun walk => (walk, state, [])
  | some (.holding job) => some (walk.openJob disk options i job, state, [])
  | some (.listing job scopes (name :: names) jobs entries) =>
    let found := addChild disk options job scopes ⟨jobs, entries, [], walk.visited⟩ name
    some ({ walk with visited := found.visited }.setWalker i
      (.listing job scopes names found.jobs found.entries), state, found.logs)
  | some (.listing _ _ [] jobs entries) => some (walk.setWalker i (.queueing jobs entries), state, [])
  | some (.queueing (job :: jobs) entries) =>
    some ((walk.put (some job)).setWalker i (.queueing jobs entries), state, [])
  | some (.queueing [] entries) => some (walk.setWalker i (.giving entries), state, [])
  | some (.giving []) => some (walk.markDone.setWalker i .waiting, state, [])
  | some (.giving (entry :: rest)) =>
    (walk.give? receiver state i entry rest).map fun (walk, state) => (walk, state, [])
  | some (.stopping crash) => some ((walk.stop crash).markDone.setWalker i .waiting, state, [])
  | some (.breaking crash) => some (walk.markDone.setWalker i (.lost crash), state, [])

/-! ### One way to run -/

/-- The step of the first thread that has one. -/
def firstStep? {σ : Type} (disk : Disk) (options : Options) (receiver : Receiver σ) (walk : SharedWalk)
    (state : σ) : Option (SharedWalk × σ × List Log.Record) :=
  (List.range walk.walkers.length).findSome? (walk.step? disk options receiver state)

/-- Runs until no thread has a step, the first thread that has one always making it. -/
def run {σ : Type} (disk : Disk) (options : Options) (receiver : Receiver σ) :
    Nat → SharedWalk → σ → List Log.Record → SharedWalk × σ × List Log.Record
  | 0, walk, state, logs => (walk, state, logs)
  | fuel + 1, walk, state, logs =>
    match walk.firstStep? disk options receiver state with
    | some (walk, state, more) => run disk options receiver fuel walk state (logs ++ more)
    | none =>
      match walk.close? with
      | some walk => run disk options receiver fuel walk state logs
      | none => (walk, state, logs)

/-- More than the steps of any walk: a directory takes a few steps besides three for each name in it. -/
def mostSteps (disk : Disk) (threads : Nat) : Nat := 16 * (disk.items.length + 2) + 2 * threads

end SharedWalk

/-- What is left of a walk: the receiver's state, the log, and what broke it off. -/
structure Walked (σ : Type) where
  state : σ
  logs : List Log.Record
  halt : Option Halt

/-- What the answer to the only entry of a walk breaks it off with. -/
def Reply.halt? : Reply → Option Halt
  | goOn | stop => none
  | fail crash => some (.crash crash)
  | interrupt crash => some (.interrupt crash)

/-- Walks a root with so many threads. A root that is no directory is given as a file. -/
def walk {σ : Type} (disk : Disk) (options : Options) (threads : Nat) (receiver : Receiver σ) (state : σ)
    (root : Path) : Except Crash (Walked σ) :=
  (start disk options root).map fun
    | .single path =>
      match receiver state (.file path) with
      | some (reply, state) => ⟨state, [], reply.halt?⟩
      | none => ⟨state, [], none⟩
    | .tree job visited logs =>
      let (walk, state, logs) := SharedWalk.run disk options receiver (SharedWalk.mostSteps disk threads)
        (.begin threads job visited) state logs
      ⟨state, logs, walk.ending⟩

end SyntaxTally.Walk
