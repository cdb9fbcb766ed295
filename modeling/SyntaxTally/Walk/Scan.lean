import SyntaxTally.Walk.Expand

/-!
# Walking a tree

The depth-first scan hands out a directory's own entries before those of its subdirectories. The
breadth-first walk takes the directories in the order in which they are found.
-/
namespace SyntaxTally.Walk

open Files

/-- What one directory gave: the records come before the entries. -/
structure Batch where
  logs : List Log.Record
  entries : List Entry
  deriving DecidableEq

/-- A root that is no directory is handed out as a file; else the walk starts with a job. -/
inductive Start where
  | single (path : Path)
  | tree (job : Job) (visited : List Place) (logs : List Log.Record)
  deriving DecidableEq

/-- How a walk of a root starts. It fails if the root, or whether it lies in a checkout, cannot be asked. -/
def start (disk : Disk) (options : Options) (root : Path) : Except Crash Start :=
  match disk.lookup root with
  | .ok (place, .directory) =>
    (rootJob disk root place).map fun (job, logs) => .tree job (if options.followLinks then [place] else []) logs
  | .ok _ => .ok (.single root)
  | .error fault => if fault.isAbsence then .ok (.single root) else .error (.system fault root.toString)

/-- Enough steps for every walk: each directory is expanded at most once. -/
def enough (disk : Disk) : Nat := disk.items.length + 2

/-- Expands the first of the jobs, then those it gave, then the others. -/
def scanJobs (disk : Disk) (options : Options) : Nat → List Job → List Place → List Batch
  | 0, _, _ => []
  | _ + 1, [], _ => []
  | fuel + 1, job :: rest, visited =>
    let found := expand disk options job visited
    ⟨found.logs, found.entries⟩ :: scanJobs disk options fuel (found.jobs ++ rest) found.visited

/-- The depth-first scan of a root. -/
def scan (disk : Disk) (options : Options) (root : Path) : Except Crash (List Batch) :=
  (start disk options root).map fun
    | .single path => [⟨[], [.file path]⟩]
    | .tree job visited logs => ⟨logs, []⟩ :: scanJobs disk options (enough disk) [job] visited

/-- Expands the jobs in the order in which they were found. -/
def queueJobs (disk : Disk) (options : Options) : Nat → List Job → List Place → List Batch
  | 0, _, _ => []
  | _ + 1, [], _ => []
  | fuel + 1, job :: rest, visited =>
    let found := expand disk options job visited
    ⟨found.logs, found.entries⟩ :: queueJobs disk options fuel (rest ++ found.jobs) found.visited

/-- The breadth-first walk of a root. -/
def queued (disk : Disk) (options : Options) (root : Path) : Except Crash (List Batch) :=
  (start disk options root).map fun
    | .single path => [⟨[], [.file path]⟩]
    | .tree job visited logs => ⟨logs, []⟩ :: queueJobs disk options (enough disk) [job] visited

/-- How many threads walk: what is asked for, else what the options say, and at least one. -/
def threads (asked : Option Int) (options : Options) : Nat :=
  let wanted := match asked with
    | none | some 0 => options.threads
    | some n => n
  max 1 wanted.toNat

end SyntaxTally.Walk
