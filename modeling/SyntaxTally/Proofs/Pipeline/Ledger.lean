import SyntaxTally.Pipeline.Run
import SyntaxTally.Proofs.Counts

/-!
# What a run owes to its entries

Let the analyser find the same about a file whenever it is asked. Then what a run has noted follows from the
entries it has dealt with, whatever their order. `Settled` says what a run of any number of workers may
give: the fault of an entry that breaks the run off, or a summary of all entries. A run of one worker is
settled.
-/
namespace SyntaxTally

open Files Walk

/-! ### What an entry gives -/

/-- What the task that analyses a file makes of the outcome. -/
def Outcome.verdict : Outcome → Except Halt (Option Counts)
  | counted counts => .ok (some counts)
  | failed _ => .ok none
  | crashed crash => .error (.crash crash)
  | interrupted crash => .error (.interrupt crash)

namespace Walk.Entry

def isFile : Entry → Bool
  | file _ => true
  | failure _ _ => false

def isFailure : Entry → Bool
  | file _ => false
  | failure _ _ => true

/-- The counts of a file that is analysed. -/
def counts? (f : Path → Outcome) : Entry → Option Counts
  | file path => match (f path).verdict with
    | .ok counts => counts
    | .error _ => none
  | failure _ _ => none

/-- What is told about a file that is skipped. -/
def skip? (f : Path → Outcome) : Entry → Option (Path × AnalysisError)
  | file path => match f path with
    | .failed error => some (path, error)
    | _ => none
  | failure _ _ => none

/-- What breaks the run off at a file. -/
def halt? (f : Path → Outcome) : Entry → Option Halt
  | file path => match (f path).verdict with
    | .ok _ => none
    | .error halt => some halt
  | failure _ _ => none

end Walk.Entry

/-- The value of all counts that the entries give. -/
def tally (f : Path → Outcome) (entries : List Entry) : WithZero (String → WithZero Int) :=
  (entries.map fun entry => total (entry.counts? f)).sum

theorem tally_append (f : Path → Outcome) (entries more : List Entry) :
    tally f (entries ++ more) = tally f entries + tally f more := by
  simp [tally]

theorem tally_perm (f : Path → Outcome) {entries more : List Entry} (same : entries.Perm more) :
    tally f entries = tally f more :=
  (same.map _).sum_eq

/-! ### Ledgers -/

variable {σ : Type}

/-- What is noted is what follows from the entries that were dealt with, in this order. -/
structure Ledger (f : Path → Outcome) (handled : List Entry) (p : Progress σ) : Prop where
  analyzed : p.analyzed = (handled.filterMap (Entry.counts? f)).length
  skips : p.skips = handled.filterMap (Entry.skip? f)
  walkErrors : p.walkErrors = handled.filter Entry.isFailure
  unbroken : ∀ entry ∈ handled, entry.halt? f = none

/-- What holds of the parts of a pipeline: the analyser is a function of the path, and the receivers of skipped files
and of walk errors do not break off. -/
structure Pipeline.Regular (pipeline : Pipeline σ) (f : Path → Outcome) : Prop where
  analyzes : ∀ path state, (pipeline.analyze path state).1 = f path
  passes : ∀ path error, pipeline.onSkip path error = none
  quiet : ∀ entry, pipeline.onWalkError entry = none

variable {pipeline : Pipeline σ} {f : Path → Outcome} {handled entries : List Entry} {p : Progress σ}

theorem ledger_logs (ledger : Ledger f handled p) (logs : List Log.Record) :
    Ledger f handled { p with logs } :=
  ⟨ledger.analyzed, ledger.skips, ledger.walkErrors, ledger.unbroken⟩

theorem takeFile_verdict (regular : pipeline.Regular f) (p : Progress σ) (path : Path) :
    (pipeline.takeFile p path).1 = (f path).verdict := by
  rw [← regular.analyzes path p.state]
  unfold Pipeline.takeFile
  obtain ⟨outcome, logs, state⟩ := pipeline.analyze path p.state
  cases outcome with
  | failed error => simp [regular.passes, Outcome.verdict]
  | _ => rfl

theorem verdict_of_takeFile {path : Path} {verdict : Except Halt (Option Counts)} {after : Progress σ}
    (regular : pipeline.Regular f) (taken : pipeline.takeFile p path = (verdict, after)) :
    verdict = (f path).verdict := by
  rw [← takeFile_verdict regular p path, taken]

theorem Ledger.enter {next : Progress σ} {entry : Entry} (ledger : Ledger f handled p)
    (analyzed : next.analyzed = p.analyzed + ([entry].filterMap (Entry.counts? f)).length)
    (skips : next.skips = p.skips ++ [entry].filterMap (Entry.skip? f))
    (walkErrors : next.walkErrors = p.walkErrors ++ [entry].filter Entry.isFailure)
    (goesOn : entry.halt? f = none) : Ledger f (handled ++ [entry]) next where
  analyzed := by rw [analyzed, ledger.analyzed, List.filterMap_append, List.length_append]
  skips := by rw [skips, ledger.skips, List.filterMap_append]
  walkErrors := by rw [walkErrors, ledger.walkErrors, List.filter_append]
  unbroken := by simpa [or_imp, forall_and, goesOn] using ledger.unbroken

/-- A file that does not break the run off is entered. -/
theorem ledger_takeFile {path : Path} {counts : Option Counts} (regular : pipeline.Regular f)
    (ledger : Ledger f handled p) (well : (f path).verdict = .ok counts) :
    Ledger f (handled ++ [.file path]) (pipeline.takeFile p path).2 := by
  have goesOn : (Entry.file path).halt? f = none := by simp [Entry.halt?, well]
  have found := regular.analyzes path p.state
  unfold Pipeline.takeFile
  generalize pipeline.analyze path p.state = answer at found ⊢
  obtain ⟨_, logs, state⟩ := answer
  subst found
  cases outcome : f path with
  | counted counts =>
    refine ledger.enter ?_ ?_ ?_ goesOn <;>
      simp [outcome, Entry.counts?, Entry.skip?, Entry.isFailure, Outcome.verdict]
  | failed error =>
    refine ledger.enter ?_ ?_ ?_ goesOn <;>
      simp [outcome, Entry.counts?, Entry.skip?, Entry.isFailure, Outcome.verdict, Progress.log, regular.passes]
  | crashed crash => simp [outcome, Outcome.verdict] at well
  | interrupted crash => simp [outcome, Outcome.verdict] at well

/-- An error of the walk is entered. -/
theorem ledger_takeError (ledger : Ledger f handled p) (pipeline : Pipeline σ) (path : Path)
    (fault : ReadFault) :
    Ledger f (handled ++ [.failure path fault]) (pipeline.takeError p path fault).2 :=
  ledger.enter rfl (by simp [Pipeline.takeError, Progress.log, Entry.skip?]) rfl rfl

/-! ### What a run may give -/

/-- The halt comes from one of the entries. -/
def Blames (f : Path → Outcome) (entries : List Entry) (halt : Halt) : Prop :=
  ∃ entry ∈ entries, entry.halt? f = some halt

theorem Blames.mono {more : List Entry} {halt : Halt} (blames : Blames f entries halt)
    (among : entries ⊆ more) :
    Blames f more halt := by
  obtain ⟨entry, listed, halts⟩ := blames
  exact ⟨entry, among listed, halts⟩

/-- A run is broken off by one of the entries, or it deals with all of them. -/
inductive Settled (f : Path → Outcome) (entries : List Entry) :
    Except RunFault Summary × Progress σ → Prop where
  | halted {halt : Halt} (doing : String) (p : Progress σ) (blames : Blames f entries halt) :
    Settled f entries (.error (halt.fault doing), p)
  | finished {handled : List Entry} {p : Progress σ} {sum : Option Counts} (all : handled.Perm entries)
    (ledger : Ledger f handled p) (sums : total sum = tally f entries) :
    Settled f entries (p.finish sum)

/-- The run was not broken off. -/
def Unbroken (result : Except RunFault Summary × Progress σ) : Prop :=
  ∀ (halt : Halt) doing, result.1 ≠ .error (halt.fault doing)

theorem unbroken_finish (p : Progress σ) (sum : Option Counts) : Unbroken (p.finish sum) := by
  intro halt doing is
  cases sum with
  | none => cases halt <;> cases is
  | some => cases is

/-- What has settled some of the entries has settled them all if it was broken off or they were all. -/
theorem Settled.widen {some : List Entry} {result : Except RunFault Summary × Progress σ}
    (settled : Settled f some result) (among : some ⊆ entries) (whole : Unbroken result → some.Perm entries) :
    Settled f entries result := by
  cases settled with
  | halted doing p blames => exact .halted doing p (blames.mono among)
  | @finished _ p sum all ledger sums =>
    have perm := whole (unbroken_finish p sum)
    exact .finished (all.trans perm) ledger (sums.trans (tally_perm f perm))

/-- What dealing with some more entries gives. -/
inductive Takes (f : Path → Outcome) (handled entries : List Entry) (sum : Option Counts) :
    Except Halt (Option Counts) × Progress σ → Prop where
  | halted {halt : Halt} (p : Progress σ) (blames : Blames f entries halt) :
    Takes f handled entries sum (.error halt, p)
  | finished {p : Progress σ} {after : Option Counts} (ledger : Ledger f (handled ++ entries) p)
    (sums : total after = total sum + tally f entries) :
    Takes f handled entries sum (.ok after, p)

theorem Takes.cons {entry : Entry} {before sum : Option Counts}
    {result : Except Halt (Option Counts) × Progress σ}
    (sums : total sum = total before + total (entry.counts? f))
    (takes : Takes f (handled ++ [entry]) entries sum result) :
    Takes f handled (entry :: entries) before result := by
  cases takes with
  | halted p blames => exact .halted p (blames.mono (List.subset_cons_self _ _))
  | finished ledger rest =>
    refine .finished (by simpa using ledger) ?_
    rw [rest, sums, tally, tally, List.map_cons, List.sum_cons, add_assoc]

theorem takes_takeEntries {sum : Option Counts} (regular : pipeline.Regular f) (ledger : Ledger f handled p)
    (entries : List Entry) :
    Takes f handled entries sum (pipeline.takeEntries sum p entries) := by
  induction entries generalizing handled p sum with
  | nil => exact .finished (by simpa using ledger) (by simp [tally])
  | cons entry rest ih =>
    cases entry with
    | file path =>
      have taken : pipeline.takeFile p path = ((f path).verdict, (pipeline.takeFile p path).2) :=
        Prod.ext (takeFile_verdict regular p path) rfl
      rw [Pipeline.takeEntries, taken]
      cases verdict : (f path).verdict with
      | error halt => exact .halted _ ⟨.file path, by simp, by simp [Entry.halt?, verdict]⟩
      | ok counts =>
        have entered := ledger_takeFile regular ledger verdict
        cases counts with
        | none => exact (ih entered).cons (by simp [Entry.counts?, verdict])
        | some counts =>
          refine (ih entered).cons ?_
          rw [total_addTo, Entry.counts?, verdict]
          rfl
    | failure path fault =>
      have quiet : (pipeline.takeError p path fault).1 = none := regular.quiet _
      have taken : pipeline.takeError p path fault = (none, (pipeline.takeError p path fault).2) :=
        Prod.ext quiet rfl
      rw [Pipeline.takeEntries, taken]
      exact (ih (ledger_takeError ledger pipeline path fault)).cons (by simp [Entry.counts?])

theorem Takes.append {more : List Entry} {sum after : Option Counts} {middle : Progress σ}
    {result : Except Halt (Option Counts) × Progress σ}
    (first : Takes f handled entries sum (.ok after, middle))
    (next : Takes f (handled ++ entries) more after result) :
    Takes f handled (entries ++ more) sum result := by
  cases first with
  | finished _ sums =>
    cases next with
    | halted p blames => exact .halted p (blames.mono (List.subset_append_right _ _))
    | finished ledger rest =>
      refine .finished (by simpa using ledger) ?_
      rw [rest, sums, tally_append, add_assoc]

theorem takes_takeBatches {sum : Option Counts} (regular : pipeline.Regular f) (ledger : Ledger f handled p)
    (batches : List Batch) :
    Takes f handled (batches.flatMap Batch.entries) sum (pipeline.takeBatches sum p batches) := by
  induction batches generalizing handled p sum with
  | nil => exact .finished (by simpa using ledger) (by simp [tally])
  | cons batch rest ih =>
    have first : Takes f handled batch.entries sum
        (pipeline.takeEntries sum { p with logs := p.logs ++ batch.logs } batch.entries) :=
      takes_takeEntries regular (ledger_logs ledger _) batch.entries
    rw [Pipeline.takeBatches, List.flatMap_cons]
    generalize pipeline.takeEntries sum { p with logs := p.logs ++ batch.logs } batch.entries =
      taken at first ⊢
    cases first with
    | halted p blames => exact .halted p (blames.mono (List.subset_append_left _ _))
    | finished ledger sums => exact Takes.append (.finished ledger sums) (ih ledger)

/-- A run of one worker is settled. -/
theorem settled_runAlone {batches : List Batch} {root : Path} (regular : pipeline.Regular f)
    (ledger : Ledger f [] p) (scanned : scan pipeline.disk pipeline.walkOptions root = .ok batches) :
    Settled f (batches.flatMap Batch.entries) (pipeline.runAlone root p) := by
  have takes : Takes f [] (batches.flatMap Batch.entries) none (pipeline.takeBatches none p batches) :=
    takes_takeBatches regular ledger batches
  simp only [Pipeline.runAlone, scanned]
  generalize pipeline.takeBatches none p batches = taken at takes ⊢
  cases takes with
  | halted p blames => exact .halted "Analysis failed" p blames
  | finished ledger sums => exact .finished (List.Perm.refl _) (by simpa using ledger) (by simpa using sums)

end SyntaxTally
