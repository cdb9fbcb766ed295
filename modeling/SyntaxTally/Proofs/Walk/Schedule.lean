import SyntaxTally.Proofs.Walk.Shared

/-!
# Walks under any schedule

A run of a walk is a sequence of steps of its threads in any order. If the receiver always goes on, the
entries that it has got when the threads are sent home are those of the depth-first scan, and each directory
was opened once.
-/
namespace SyntaxTally.Walk

open Files

/-- The turns of a run: which thread made a step, and in which state of the walk. -/
abbrev Trace := List (SharedWalk × Nat)

namespace Trace

/-- The directories opened in the turns. -/
def opened (trace : Trace) : List Job := trace.flatMap fun turn => turn.1.opens turn.2

/-- The entries given in the turns. -/
def given (trace : Trace) : List Entry := trace.flatMap fun turn => turn.1.gives turn.2

end Trace

/-- A run from the beginning of a walk to some later state, with its turns. -/
inductive Runs (disk : Disk) (options : Options) {σ : Type} (receiver : Receiver σ) (first : SharedWalk)
    (before : σ) :
    Trace → SharedWalk → σ → Prop where
  | refl : Runs disk options receiver first before [] first before
  | step {trace : Trace} {walk next : SharedWalk} {state after : σ} {i : Nat} {logs : List Log.Record}
    (runs : Runs disk options receiver first before trace walk state)
    (steps : walk.step? disk options receiver state i = some (next, after, logs)) :
    Runs disk options receiver first before (trace ++ [(walk, i)]) next after
  | close {trace : Trace} {walk next : SharedWalk} {state : σ}
    (runs : Runs disk options receiver first before trace walk state) (closes : walk.close? = some next) :
    Runs disk options receiver first before trace next state

/-- The turns of a walk whose receiver may be another one at each step. -/
inductive Course (disk : Disk) (options : Options) (first : SharedWalk) : Trace → SharedWalk → Prop where
  | refl : Course disk options first [] first
  | step {σ : Type} {receiver : Receiver σ} {state after : σ} {trace : Trace} {walk next : SharedWalk} {i : Nat}
    {logs : List Log.Record} (course : Course disk options first trace walk)
    (steps : walk.step? disk options receiver state i = some (next, after, logs)) :
    Course disk options first (trace ++ [(walk, i)]) next
  | close {trace : Trace} {walk next : SharedWalk} (course : Course disk options first trace walk)
    (closes : walk.close? = some next) :
    Course disk options first trace next

/-- The receiver takes these entries one after the other. -/
inductive Delivers {σ : Type} (receiver : Receiver σ) : σ → List Entry → σ → Prop where
  | nil {state : σ} : Delivers receiver state [] state
  | cons {state next after : σ} {entry : Entry} {reply : Reply} {rest : List Entry}
    (answer : receiver state entry = some (reply, next)) (others : Delivers receiver next rest after) :
    Delivers receiver state (entry :: rest) after

/-- The receiver never stops a walk, though it may keep a thread waiting. -/
def Willing {σ : Type} (receiver : Receiver σ) : Prop :=
  ∀ state entry reply after, receiver state entry = some (reply, after) → reply = .goOn

variable {disk : Disk} {options : Options} {σ : Type} {receiver : Receiver σ} {first walk next : SharedWalk}
  {before state after : σ} {trace : Trace} {i : Nat} {logs : List Log.Record}

/-! ### What runs keep -/

theorem Delivers.append {entries more : List Entry} (delivers : Delivers receiver before entries state)
    (others : Delivers receiver state more after) : Delivers receiver before (entries ++ more) after := by
  induction delivers with
  | nil => exact others
  | cons answer _ ih => exact .cons answer (ih others)

theorem Delivers.answer {entry : Entry} (delivers : Delivers receiver state [entry] after) :
    ∃ reply, receiver state entry = some (reply, after) := by
  cases delivers with
  | cons answer others =>
    cases others
    exact ⟨_, answer⟩

theorem delivers_step? (steps : walk.step? disk options receiver state i = some (next, after, logs)) :
    Delivers receiver state (walk.gives i) after := by
  obtain ⟨old, new, shared, held, turn, -⟩ := turn_of_step? steps
  rw [SharedWalk.gives, held]
  cases turn with
  | give answer | decline answer | breakOff answer => exact .cons answer .nil
  | _ => exact .nil

theorem unstopped_close? (closes : walk.close? = some next) : next.Unstopped ↔ walk.Unstopped := by
  obtain ⟨walkers, stopped, -⟩ := close?_walkers closes
  constructor
  · intro unstopped
    exact ⟨stopped ▸ unstopped.goesOn, walkers ▸ unstopped.noneCut⟩
  · intro unstopped
    exact ⟨stopped ▸ unstopped.goesOn, walkers ▸ unstopped.noneCut⟩

theorem unstopped_step?
    (willing : ∀ entry reply after, receiver state entry = some (reply, after) → reply = .goOn)
    (unstopped : walk.Unstopped)
    (steps : walk.step? disk options receiver state i = some (next, after, logs)) :
    next.Unstopped := by
  obtain ⟨old, new, shared, held, turn, rfl⟩ := turn_of_step? steps
  have uncut := unstopped.noneCut old (List.mem_of_getElem? held)
  have goesOn : shared.stopped = false ∧ new.isCut = false := by
    cases turn with
    | tell | lose => cases uncut
    | decline answer declines => exact absurd (willing _ _ _ answer) declines
    | breakOff answer => exact nomatch willing _ _ _ answer
    | _ => exact ⟨unstopped.goesOn, rfl⟩
  refine ⟨goesOn.1, ?_⟩
  simpa [SharedWalk.setWalker, turn.walkers] using forall_mem_set unstopped.noneCut goesOn.2

/-- What the receiver crashed with on an entry of the thread, as far as the others are not told so. -/
def Walker.crash? : Walker → Option Crash
  | stopping crash => crash
  | breaking crash | lost crash => some crash
  | _ => none

/-- The receiver has not crashed on any entry. -/
structure SharedWalk.Calm (walk : SharedWalk) : Prop where
  noCrash : walk.crashes = []
  noneCrashes : ∀ walker ∈ walk.walkers, walker.crash? = none

theorem SharedWalk.Calm.ending (calm : walk.Calm) : walk.ending = none := by
  have uninterrupted : walk.walkers.findSome? Walker.interrupt? = none := by
    refine List.findSome?_eq_none_iff.mpr fun walker member => ?_
    have noCrash := calm.noneCrashes walker member
    cases walker with
    | lost => cases noCrash
    | _ => rfl
  simp [SharedWalk.ending, uninterrupted, calm.noCrash]

theorem Reply.crash?_of_halt? {reply : Reply} (quiet : reply.halt? = none) : reply.crash? = none := by
  cases reply with
  | fail => cases quiet
  | _ => rfl

theorem calm_step?
    (quiet : ∀ entry reply after, receiver state entry = some (reply, after) → reply.halt? = none)
    (calm : walk.Calm) (steps : walk.step? disk options receiver state i = some (next, after, logs)) :
    next.Calm := by
  obtain ⟨old, new, shared, held, turn, rfl⟩ := turn_of_step? steps
  have noCrash := calm.noneCrashes old (List.mem_of_getElem? held)
  have stays : shared.crashes = [] ∧ new.crash? = none := by
    cases turn with
    | @tell crash =>
      obtain rfl : crash = none := noCrash
      exact ⟨by simp [SharedWalk.stop, SharedWalk.markDone, calm.noCrash], rfl⟩
    | lose => cases noCrash
    | decline answer => exact ⟨calm.noCrash, Reply.crash?_of_halt? (quiet _ _ _ answer)⟩
    | breakOff answer => cases quiet _ _ _ answer
    | _ => exact ⟨calm.noCrash, rfl⟩
  refine ⟨stays.1, ?_⟩
  simpa [SharedWalk.setWalker, turn.walkers] using forall_mem_set calm.noneCrashes stays.2

theorem calm_close? (closes : walk.close? = some next) (calm : walk.Calm) : next.Calm := by
  obtain ⟨walkers, -, crashes⟩ := close?_walkers closes
  exact ⟨crashes ▸ calm.noCrash, walkers ▸ calm.noneCrashes⟩

namespace Course

theorem trans {middle : SharedWalk} {more : Trace} (course : Course disk options first trace middle)
    (others : Course disk options middle more walk) : Course disk options first (trace ++ more) walk := by
  induction others with
  | refl => rwa [List.append_nil]
  | step _ steps ih =>
    rw [← List.append_assoc]
    exact ih.step steps
  | close _ closes ih => exact ih.close closes

theorem sound (sound : first.Sound) (course : Course disk options first trace walk) : walk.Sound := by
  induction course with
  | refl => exact sound
  | step _ steps ih => exact sound_step? ih steps
  | close _ closes ih => exact sound_close? ih closes

/-- What each step adds to a stock and spends of it, but for what a stop drops, the run adds and spends. -/
theorem spends {α : Type} {stock : SharedWalk → List α} {spent : SharedWalk → Nat → List α}
    (gained : SharedWalk → Nat → List α)
    (step : ∀ {σ : Type} {receiver : Receiver σ} {walk next : SharedWalk} {state after : σ} {i : Nat}
      {logs : List Log.Record}, walk.step? disk options receiver state i = some (next, after, logs) →
        ∃ lost, (stock walk ++ gained walk i).Perm (spent walk i ++ stock next ++ lost) ∧
          (next.Unstopped → lost = []))
    (close : ∀ {walk next : SharedWalk}, walk.close? = some next → stock next = stock walk)
    (course : Course disk options first trace walk) :
    ∃ lost, (stock first ++ trace.flatMap fun turn => gained turn.1 turn.2).Perm
        ((trace.flatMap fun turn => spent turn.1 turn.2) ++ stock walk ++ lost) ∧
      (walk.Unstopped → lost = []) := by
  classical
  induction course with
  | refl => exact ⟨[], by simp, fun _ => rfl⟩
  | step _ steps ih =>
    -- a walk that is not stopped now was not stopped before, so that no step of it dropped anything
    obtain ⟨lost, same, whole⟩ := ih
    obtain ⟨more, passed, wholeStep⟩ := step steps
    refine ⟨more ++ lost, List.perm_iff_count.mpr fun item => ?_, fun unstopped => ?_⟩
    · have soFar := same.count_eq item
      have here := passed.count_eq item
      simp only [List.flatMap_append, List.flatMap_singleton, List.count_append] at soFar here ⊢
      omega
    · rw [wholeStep unstopped, whole (unstopped_of_step? steps unstopped)]
      rfl
  | close _ closes ih =>
    rw [close closes]
    simpa [unstopped_close? closes] using ih

theorem reached (links : options.followLinks = false)
    (course : Course disk options first trace walk) :
    ∃ lost, (Walk.reached disk options (first.jobs disk options)).Perm
        (trace.opened ++ Walk.reached disk options (walk.jobs disk options) ++ lost) ∧
      (walk.Unstopped → lost = []) := by
  obtain ⟨lost, same, whole⟩ := course.spends (fun _ _ => [])
    (fun steps => by simpa using step?_reached links steps) fun closes => by rw [close?_jobs closes]
  rw [List.flatMap_eq_nil_iff.mpr fun _ _ => rfl, List.append_nil] at same
  exact ⟨lost, same, whole⟩

theorem pending (links : options.followLinks = false)
    (course : Course disk options first trace walk) :
    ∃ lost, (first.pending disk options).Perm (trace.given ++ walk.pending disk options ++ lost) ∧
      (walk.Unstopped → lost = []) := by
  obtain ⟨lost, same, whole⟩ := course.spends (fun _ _ => [])
    (fun steps => by simpa using step?_pending links steps) close?_pending
  rw [List.flatMap_eq_nil_iff.mpr fun _ _ => rfl, List.append_nil] at same
  exact ⟨lost, same, whole⟩

/-- What was given and what the threads hold are the entries of the opened directories. -/
theorem entries (course : Course disk options first trace walk) :
    ∃ lost, (first.entries disk options ++ trace.opened.flatMap (ownEntries disk options)).Perm
        (trace.given ++ walk.entries disk options ++ lost) ∧
      (walk.Unstopped → lost = []) := by
  obtain ⟨lost, same, whole⟩ := course.spends
    (fun walk i => (walk.opens i).flatMap (ownEntries disk options))
    (fun steps => by
      obtain ⟨lost, passed, whole⟩ := step?_entries steps
      exact ⟨lost, passed.symm, whole⟩)
    fun closes => by rw [SharedWalk.entries, SharedWalk.entries, (close?_walkers closes).1]
  exact ⟨lost, by simpa [Trace.opened, Trace.given, List.flatMap_assoc] using same, whole⟩

end Course

namespace Runs

theorem course (runs : Runs disk options receiver first before trace walk state) :
    Course disk options first trace walk := by
  induction runs with
  | refl => exact .refl
  | step _ steps ih => exact ih.step steps
  | close _ closes ih => exact ih.close closes

theorem delivers (runs : Runs disk options receiver first before trace walk state) :
    Delivers receiver before trace.given state := by
  induction runs with
  | refl => exact .nil
  | step _ steps ih =>
    rw [Trace.given, List.flatMap_append, List.flatMap_singleton]
    exact ih.append (delivers_step? steps)
  | close _ _ ih => exact ih

theorem sound (sound : first.Sound) (runs : Runs disk options receiver first before trace walk state) :
    walk.Sound :=
  runs.course.sound sound

theorem unstopped (willing : Willing receiver) (unstopped : first.Unstopped)
    (runs : Runs disk options receiver first before trace walk state) : walk.Unstopped := by
  induction runs with
  | refl => exact unstopped
  | step _ steps ih => exact unstopped_step? (willing _) ih steps
  | close _ closes ih => exact (unstopped_close? closes).mpr ih

/-- The run in which always the first thread makes a step is one of them. -/
theorem run (runs : Runs disk options receiver first before trace walk state) (fuel : Nat)
    (logs : List Log.Record) :
    ∃ trace, Runs disk options receiver first before trace
      (walk.run disk options receiver fuel state logs).1
      (walk.run disk options receiver fuel state logs).2.1 := by
  induction fuel generalizing trace walk state logs with
  | zero => exact ⟨trace, runs⟩
  | succ fuel ih =>
    unfold SharedWalk.run
    split
    · rename_i steps
      obtain ⟨i, -, steps⟩ := List.exists_of_findSome?_eq_some steps
      exact ih (runs.step steps) _
    · split
      · exact ih (runs.close ‹_›) _
      · exact ⟨trace, runs⟩

end Runs

/-! ### Whole walks -/

theorem jobs_begin (threads : Nat) (job : Job) (visited : List Place) :
    (SharedWalk.begin threads job visited).jobs disk options = [job] := by
  simp [SharedWalk.begin, SharedWalk.jobs, Walker.jobs]

theorem entries_begin (threads : Nat) (job : Job) (visited : List Place) :
    (SharedWalk.begin threads job visited).entries disk options = [] := by
  simp [SharedWalk.begin, SharedWalk.entries, Walker.entries]

theorem pending_begin (threads : Nat) (job : Job) (visited : List Place) :
    (SharedWalk.begin threads job visited).pending disk options =
      (Walk.reached disk options [job]).flatMap (ownEntries disk options) := by
  rw [SharedWalk.pending, jobs_begin, entries_begin, List.nil_append]

theorem unstopped_begin (threads : Nat) (job : Job) (visited : List Place) :
    (SharedWalk.begin threads job visited).Unstopped :=
  ⟨rfl, by simp [SharedWalk.begin, Walker.isCut]⟩

theorem Course.nodup_opened {threads : Nat} {job : Job} {visited : List Place} (links : options.followLinks = false)
    (course : Course disk options (.begin threads job visited) trace walk) :
    (trace.opened.map Job.place).Nodup := by
  obtain ⟨lost, same, -⟩ := course.reached links
  rw [jobs_begin] at same
  have all := nodup_reached links disk (List.pairwise_singleton Apart job)
  have parts := (same.map Job.place).nodup_iff.mp all
  rw [List.append_assoc, List.map_append] at parts
  exact parts.of_append_left

/-- No directory is opened twice, whatever the receiver answers. -/
theorem nodup_opened {threads : Nat} {job : Job} {visited : List Place} (links : options.followLinks = false)
    (runs : Runs disk options receiver (.begin threads job visited) before trace walk state) :
    (trace.opened.map Job.place).Nodup :=
  runs.course.nodup_opened links

/-- A way in which the walk of a root can end, with the entries it gives and what becomes of the receiver. -/
inductive WalkEnds (disk : Disk) (options : Options) (threads : Nat) {σ : Type} (receiver : Receiver σ)
    (root : Path) (before : σ) : List Entry → σ → Prop where
  | single {path : Path} {reply : Reply} {after : σ} (begins : start disk options root = .ok (.single path))
    (answer : receiver before (.file path) = some (reply, after)) :
    WalkEnds disk options threads receiver root before [.file path] after
  | tree {job : Job} {visited : List Place} {logs : List Log.Record} {trace : Trace} {walk : SharedWalk}
    {after : σ} (begins : start disk options root = .ok (.tree job visited logs))
    (runs : Runs disk options receiver (.begin threads job visited) before trace walk after)
    (atEnd : walk.isOver = true) : WalkEnds disk options threads receiver root before trace.given after

theorem given_of_idle {threads : Nat} {job : Job} {visited : List Place} (links : options.followLinks = false)
    (willing : Willing receiver)
    (runs : Runs disk options receiver (.begin threads job visited) before trace walk state)
    (onlyMarks : ∀ item ∈ walk.queue, item = none) (idle : ∀ walker ∈ walk.walkers, walker.isBusy = false) :
    trace.opened.Perm (reached disk options [job]) ∧
      trace.given.Perm ((reached disk options [job]).flatMap (ownEntries disk options)) := by
  have unstopped := runs.unstopped willing (unstopped_begin threads job visited)
  obtain ⟨noJobs, noEntries⟩ := nothing_left disk options onlyMarks idle
  obtain ⟨lostJobs, opened, wholeJobs⟩ := runs.course.reached links
  obtain ⟨lostEntries, given, wholeEntries⟩ := runs.course.pending links
  rw [jobs_begin, noJobs, wholeJobs unstopped, reached_nil, List.append_nil, List.append_nil] at opened
  rw [pending_begin, noEntries, wholeEntries unstopped, List.append_nil, List.append_nil] at given
  exact ⟨opened.symm, given.symm⟩

/-- The threads are sent home only when no directory is queued or in work. By then each directory of the
scan was opened once, and the receiver, if it always goes on, has got exactly the entries of the scan. -/
theorem shared_walk_gives_scan {threads : Nat} {root : Path} {batches : List Batch}
    (links : options.followLinks = false) (willing : Willing receiver)
    (scanned : scan disk options root = .ok batches) (before : σ) :
    (∀ given after, WalkEnds disk options threads receiver root before given after →
      Delivers receiver before given after ∧ given.Perm (batches.flatMap Batch.entries)) ∧
    ∀ job visited logs trace walk state, start disk options root = .ok (.tree job visited logs) →
      Runs disk options receiver (.begin threads job visited) before trace walk state →
      (trace.opened.map Job.place).Nodup ∧
      (walk.marks ≠ none →
        (∀ item ∈ walk.queue, item = none) ∧ (∀ walker ∈ walk.walkers, walker.isBusy = false) ∧
        trace.opened.Perm (reached disk options [job])) := by
  constructor
  · intro given after ends
    cases ends with
    | single begins answer =>
      rw [scan, begins] at scanned
      obtain rfl := Except.ok.inj scanned
      exact ⟨.cons answer .nil, List.Perm.refl _⟩
    | tree begins runs atEnd =>
      obtain ⟨onlyMarks, idle⟩ := idle_of_isOver (runs.sound (sound_begin _ _ _)) atEnd
      rw [scan_entries links begins scanned]
      exact ⟨runs.delivers, (given_of_idle links willing runs onlyMarks idle).2⟩
  · intro job visited logs trace walk state begins runs
    refine ⟨nodup_opened links runs, fun closed => ?_⟩
    obtain ⟨onlyMarks, idle⟩ := (runs.sound (sound_begin _ _ _)).closed closed
    exact ⟨onlyMarks, idle, (given_of_idle links willing runs onlyMarks idle).1⟩

/-- A file, a directory with another one in it, a directory that cannot be listed, and a link. -/
def smallDisk : Disk where
  items := [(["a.py"], .file []), (["d"], .directory), (["d", "c.rs"], .file []), (["e"], .directory),
    (["l"], .link "d")]
  here := []
  home := "/"
  locked := ["/e"]
  sealed := []
  tree := by decide

def smallBatches : List Batch :=
  [⟨[], []⟩, ⟨[⟨.debug, "discovery", "Not following symlink /l"⟩], [.file ⟨1, ["a.py"]⟩]⟩,
    ⟨[], [.file ⟨1, ["d", "c.rs"]⟩]⟩, ⟨[], [.failure ⟨1, ["e"]⟩ (.system .denied "/e")]⟩]

/-- The top of a disk, with no rules above it. -/
def topJob : Job := { path := ⟨1, []⟩, place := [], below := [], scopes := [] }

theorem scan_smallDisk : scan smallDisk {} ⟨1, []⟩ = .ok smallBatches := by decide +kernel

theorem start_smallDisk (options : Options) :
    start smallDisk options ⟨1, []⟩ = .ok (.tree topJob (if options.followLinks then [[]] else []) []) := by
  have isDir : smallDisk.lookup ⟨1, []⟩ = .ok ([], .directory) := by rfl
  have first : rootJob smallDisk ⟨1, []⟩ [] = .ok (topJob, []) := by decide +kernel
  rw [start_of_directory options isDir, first]
  rfl

/-- Keeps all that it gets. -/
def keepAll : Receiver (List Entry) := fun kept entry => some (.goOn, kept ++ [entry])

theorem willing_keepAll : Willing keepAll := by
  rintro state entry reply after answer
  cases answer
  rfl

theorem shared_walk_gives_scan_smallDisk :
    ∃ given kept, WalkEnds smallDisk {} 2 keepAll ⟨1, []⟩ [] given kept ∧ Delivers keepAll [] given kept ∧
      given.Perm [.file ⟨1, ["a.py"]⟩, .file ⟨1, ["d", "c.rs"]⟩,
        .failure ⟨1, ["e"]⟩ (.system .denied "/e")] := by
  have atEnd : (SharedWalk.run smallDisk {} keepAll 60 (.begin 2 topJob []) [] []).1.isOver = true := by decide +kernel
  obtain ⟨trace, runs⟩ := Runs.refl.run 60 []
  have ends := WalkEnds.tree (start_smallDisk {}) runs atEnd
  exact ⟨_, _, ends, (shared_walk_gives_scan rfl willing_keepAll scan_smallDisk []).1 _ _ ends⟩

end SyntaxTally.Walk
