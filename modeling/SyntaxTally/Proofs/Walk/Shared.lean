import SyntaxTally.Proofs.Slots
import SyntaxTally.Proofs.Walk.Scan
import SyntaxTally.Walk.Shared

/-!
# Walks of a tree with several threads

However the threads take turns, the directories that were opened and those that are still to be opened are
together the ones that the depth-first scan reaches, and the entries that were given and those that are
still to be given are together the own entries of the opened directories. The count of unfinished jobs is
the number of jobs that are queued or in work, so that the threads are sent home only when there are none.
-/
namespace SyntaxTally.Walk

open Files Ignore

/-! ### What a step can do -/

/-- The crash that is kept for the end of the walk. -/
def Reply.crash? : Reply → Option Crash
  | goOn | stop | interrupt _ => none
  | fail crash => some crash

/-- The turns of a thread: what it is at before and after, and what becomes of what the threads share. -/
inductive Turn (disk : Disk) (options : Options) {σ : Type} (receiver : Receiver σ) (walk : SharedWalk)
    (state : σ) :
    Walker → Walker → SharedWalk → σ → Prop where
  | goHome {rest : List (Option Job)} (next : walk.queue = none :: rest) :
    Turn disk options receiver walk state .waiting .ended { walk with queue := rest }.markDone state
  | take {job : Job} {rest : List (Option Job)} (next : walk.queue = some job :: rest) :
    Turn disk options receiver walk state .waiting (.holding job) { walk with queue := rest } state
  | pass {job : Job} (stopped : walk.stopped = true) :
    Turn disk options receiver walk state (.holding job) .waiting walk.markDone state
  | openDirectory {job : Job} (goesOn : walk.stopped = false) :
    Turn disk options receiver walk state (.holding job)
      (.listing job (scopesAt disk options job) (listedNames disk job) []
        ((readRules disk job.path).2 ++ barredEntry disk job)) walk state
  | list {job : Job} {scopes : List Scope} {name : String} {names : List String} {jobs : List Job}
    {entries : List Entry} {found : Expansion}
    (adds : found = addChild disk options job scopes ⟨jobs, entries, [], walk.visited⟩ name) :
    Turn disk options receiver walk state (.listing job scopes (name :: names) jobs entries)
      (.listing job scopes names found.jobs found.entries) { walk with visited := found.visited } state
  | listed {job : Job} {scopes : List Scope} {jobs : List Job} {entries : List Entry} :
    Turn disk options receiver walk state (.listing job scopes [] jobs entries)
      (.queueing jobs entries) walk state
  | queueJob {job : Job} {jobs : List Job} {entries : List Entry} :
    Turn disk options receiver walk state (.queueing (job :: jobs) entries) (.queueing jobs entries)
      (walk.put (some job)) state
  | queued {entries : List Entry} :
    Turn disk options receiver walk state (.queueing [] entries) (.giving entries) walk state
  | give {entry : Entry} {rest : List Entry} {after : σ}
    (answer : receiver state entry = some (.goOn, after)) :
    Turn disk options receiver walk state (.giving (entry :: rest)) (.giving rest) walk after
  | decline {entry : Entry} {rest : List Entry} {reply : Reply} {after : σ}
    (answer : receiver state entry = some (reply, after)) (declines : reply ≠ .goOn)
    (caught : ∀ crash, reply ≠ .interrupt crash) :
    Turn disk options receiver walk state (.giving (entry :: rest)) (.stopping reply.crash?) walk after
  | breakOff {entry : Entry} {rest : List Entry} {crash : Crash} {after : σ}
    (answer : receiver state entry = some (.interrupt crash, after)) :
    Turn disk options receiver walk state (.giving (entry :: rest)) (.breaking crash) walk after
  | given : Turn disk options receiver walk state (.giving []) .waiting walk.markDone state
  | tell {crash : Option Crash} :
    Turn disk options receiver walk state (.stopping crash) .waiting (walk.stop crash).markDone state
  | lose {crash : Crash} :
    Turn disk options receiver walk state (.breaking crash) (.lost crash) walk.markDone state

variable {disk : Disk} {options : Options} {σ : Type} {receiver : Receiver σ}
  {walk shared next : SharedWalk} {old new : Walker} {state after : σ} {i : Nat} {logs : List Log.Record}

theorem turn_of_step? (steps : walk.step? disk options receiver state i = some (next, after, logs)) :
    ∃ old new shared, walk.walkers[i]? = some old ∧
      Turn disk options receiver walk state old new shared after ∧
      next = shared.setWalker i new := by
  unfold SharedWalk.step? at steps
  split at steps
  · cases steps
  · cases steps
  · cases steps
  · rename_i idle
    unfold SharedWalk.take? at steps
    split at steps
    · cases steps
    · cases steps
      exact ⟨_, _, _, idle, .goHome ‹_›, rfl⟩
    · cases steps
      exact ⟨_, _, _, idle, .take ‹_›, rfl⟩
  · rename_i holds
    cases steps
    unfold SharedWalk.openJob
    split
    · exact ⟨_, _, _, holds, .pass ‹_›, rfl⟩
    · exact ⟨_, _, _, holds, .openDirectory (Bool.eq_false_iff.mpr ‹_›), rfl⟩
  · cases steps
    exact ⟨_, _, _, ‹_›, .list rfl, rfl⟩
  · cases steps
    exact ⟨_, _, _, ‹_›, .listed, rfl⟩
  · cases steps
    exact ⟨_, _, _, ‹_›, .queueJob, rfl⟩
  · cases steps
    exact ⟨_, _, _, ‹_›, .queued, rfl⟩
  · cases steps
    exact ⟨_, _, _, ‹_›, .given, rfl⟩
  · rename_i gives
    unfold SharedWalk.give? at steps
    obtain ⟨⟨walk', state'⟩, told, same⟩ := Option.map_eq_some_iff.mp steps
    obtain ⟨⟨reply, answered⟩, answer, told⟩ := Option.map_eq_some_iff.mp told
    cases same
    cases reply with
    | goOn => cases told; exact ⟨_, _, _, gives, .give answer, rfl⟩
    | stop => cases told; exact ⟨_, _, _, gives, .decline answer (by simp) (by simp), rfl⟩
    | fail crash => cases told; exact ⟨_, _, _, gives, .decline answer (by simp) (by simp), rfl⟩
    | interrupt crash => cases told; exact ⟨_, _, _, gives, .breakOff answer, rfl⟩
  · cases steps
    exact ⟨_, _, _, ‹_›, .tell, rfl⟩
  · cases steps
    exact ⟨_, _, _, ‹_›, .lose, rfl⟩

theorem Turn.walkers (turn : Turn disk options receiver walk state old new shared after) :
    shared.walkers = walk.walkers := by
  cases turn <;> rfl

theorem Turn.marks (turn : Turn disk options receiver walk state old new shared after) :
    shared.marks = walk.marks := by
  cases turn <;> rfl

/-! ### Directories and entries that are still to come -/

namespace Walker

/-- The directories that a thread has yet to open or to queue. -/
def jobs (disk : Disk) (options : Options) : Walker → List Job
  | holding job => [job]
  | listing job scopes names jobs _ => jobs ++ names.flatMap (childJobs disk options job scopes)
  | queueing jobs _ => jobs
  | waiting | giving _ | stopping _ | breaking _ | ended | lost _ => []

/-- The entries that a thread has yet to give. -/
def entries (disk : Disk) (options : Options) : Walker → List Entry
  | listing job scopes names _ entries => entries ++ names.flatMap (childEntries disk options job scopes)
  | queueing _ entries | giving entries => entries
  | waiting | holding _ | stopping _ | breaking _ | ended | lost _ => []

/-- The directory that the next step of a thread opens. -/
def opens (stopped : Bool) : Walker → List Job
  | holding job => if stopped then [] else [job]
  | _ => []

/-- The entry that the next step of a thread gives. -/
def gives : Walker → List Entry
  | giving (entry :: _) => [entry]
  | _ => []

/-- An entry of the thread was answered otherwise than by going on, and the others are not told so. -/
def isCut : Walker → Bool
  | stopping _ | breaking _ | lost _ => true
  | _ => false

end Walker

namespace SharedWalk

def jobs (disk : Disk) (options : Options) (walk : SharedWalk) : List Job :=
  walk.queue.filterMap id ++ walk.walkers.flatMap (Walker.jobs disk options)

def entries (disk : Disk) (options : Options) (walk : SharedWalk) : List Entry :=
  walk.walkers.flatMap (Walker.entries disk options)

def opens (walk : SharedWalk) (i : Nat) : List Job :=
  (walk.walkers[i]?.map (Walker.opens walk.stopped)).getD []

def gives (walk : SharedWalk) (i : Nat) : List Entry := (walk.walkers[i]?.map Walker.gives).getD []

/-- No entry was answered otherwise than by going on. -/
structure Unstopped (walk : SharedWalk) : Prop where
  goesOn : walk.stopped = false
  noneCut : ∀ walker ∈ walk.walkers, walker.isCut = false

end SharedWalk

/-- A turn passes directories on, opens one or, once the walk is stopped, drops one. -/
theorem Turn.jobs (links : options.followLinks = false)
    (turn : Turn disk options receiver walk state old new shared after) :
    ∃ lost, (shared.queue.filterMap id ++ new.jobs disk options ++ old.opens walk.stopped ++ lost).Perm
        (walk.queue.filterMap id ++ old.jobs disk options ++
          (old.opens walk.stopped).flatMap (subjobs disk options)) ∧
      (shared.stopped = false → lost = []) := by
  cases turn with
  | goHome queue =>
    exact ⟨[], by simp [queue, SharedWalk.markDone, Walker.jobs, Walker.opens], fun _ => rfl⟩
  | take queue => exact ⟨[], by simp [queue, Walker.jobs, Walker.opens], fun _ => rfl⟩
  | @pass job stopped =>
    refine ⟨[job], by simp [stopped, SharedWalk.markDone, Walker.jobs, Walker.opens], fun goesOn => ?_⟩
    simp [SharedWalk.markDone, stopped] at goesOn
  | openDirectory goesOn =>
    refine ⟨[], ?_, fun _ => rfl⟩
    simp only [goesOn, Walker.jobs, Walker.opens, subjobs, Bool.false_eq_true, if_false, List.nil_append,
      List.append_nil, List.append_assoc, List.flatMap_singleton]
    exact List.perm_append_comm.append_left _
  | @list job scopes name names jobs entries found adds =>
    have more := (addChild_eq links disk job scopes ⟨jobs, entries, [], walk.visited⟩ name).1
    exact ⟨[], by simp [adds, more, Walker.jobs, Walker.opens], fun _ => rfl⟩
  | listed => exact ⟨[], by simp [Walker.jobs, Walker.opens], fun _ => rfl⟩
  | queueJob => exact ⟨[], by simp [SharedWalk.put, Walker.jobs, Walker.opens], fun _ => rfl⟩
  | queued | give | decline | breakOff => exact ⟨[], by simp [Walker.jobs, Walker.opens], fun _ => rfl⟩
  | given | lose => exact ⟨[], by simp [SharedWalk.markDone, Walker.jobs, Walker.opens], fun _ => rfl⟩
  | tell =>
    exact ⟨[], by simp [SharedWalk.stop, SharedWalk.markDone, Walker.jobs, Walker.opens], fun _ => rfl⟩

/-- A turn lists entries, gives one or, when one is declined, drops those behind it. -/
theorem Turn.entries (turn : Turn disk options receiver walk state old new shared after) :
    ∃ lost, (old.gives ++ new.entries disk options ++ lost).Perm
        (old.entries disk options ++ (old.opens walk.stopped).flatMap (ownEntries disk options)) ∧
      (new.isCut = false → lost = []) := by
  cases turn with
  | goHome | take | given | tell | lose =>
    exact ⟨[], by simp [Walker.entries, Walker.opens, Walker.gives], fun _ => rfl⟩
  | pass stopped => exact ⟨[], by simp [stopped, Walker.entries, Walker.opens, Walker.gives], fun _ => rfl⟩
  | openDirectory goesOn =>
    refine ⟨[], ?_, fun _ => rfl⟩
    simp [goesOn, Walker.entries, Walker.opens, Walker.gives, ownEntries]
  | @list job scopes name names jobs entries found adds =>
    have more := addChild_entries disk options job scopes ⟨jobs, entries, [], walk.visited⟩ name
    exact ⟨[], by simp [adds, more, Walker.entries, Walker.opens, Walker.gives], fun _ => rfl⟩
  | listed | queueJob | queued =>
    exact ⟨[], by simp [Walker.entries, Walker.opens, Walker.gives], fun _ => rfl⟩
  | give => exact ⟨[], by simp [Walker.entries, Walker.opens, Walker.gives], fun _ => rfl⟩
  | @decline _ rest | @breakOff _ rest =>
    refine ⟨rest, by simp [Walker.entries, Walker.opens, Walker.gives], fun goesOn => ?_⟩
    cases goesOn

/-! ### What a walk keeps -/

theorem step?_jobs (links : options.followLinks = false)
    (steps : walk.step? disk options receiver state i = some (next, after, logs)) :
    ∃ lost, (next.jobs disk options ++ walk.opens i ++ lost).Perm
        (walk.jobs disk options ++ (walk.opens i).flatMap (subjobs disk options)) ∧
      (next.Unstopped → lost = []) := by
  classical
  obtain ⟨old, new, shared, held, turn, rfl⟩ := turn_of_step? steps
  obtain ⟨lost, same, whole⟩ := turn.jobs links
  -- the other threads keep what they have, so it is enough to count what this one had and has
  refine ⟨lost, List.perm_iff_count.mpr fun job => ?_, fun unstopped => whole unstopped.goesOn⟩
  have here := same.count_eq job
  have others := (flatMap_set_perm (Walker.jobs disk options) held new).count_eq job
  simp only [SharedWalk.jobs, SharedWalk.opens, SharedWalk.setWalker, turn.walkers, held, Option.map_some,
    Option.getD_some, List.count_append] at here others ⊢
  omega

theorem step?_entries
    (steps : walk.step? disk options receiver state i = some (next, after, logs)) :
    ∃ lost, (walk.gives i ++ next.entries disk options ++ lost).Perm
        (walk.entries disk options ++ (walk.opens i).flatMap (ownEntries disk options)) ∧
      (next.Unstopped → lost = []) := by
  classical
  obtain ⟨old, new, shared, held, turn, rfl⟩ := turn_of_step? steps
  obtain ⟨lost, same, whole⟩ := turn.entries
  refine ⟨lost, List.perm_iff_count.mpr fun entry => ?_, fun unstopped => whole ?_⟩
  · have here := same.count_eq entry
    have others := (flatMap_set_perm (Walker.entries disk options) held new).count_eq entry
    simp only [SharedWalk.entries, SharedWalk.opens, SharedWalk.gives, SharedWalk.setWalker, turn.walkers,
      held, Option.map_some, Option.getD_some, List.count_append] at here others ⊢
    omega
  · refine unstopped.noneCut new ?_
    obtain ⟨inside, -⟩ := List.getElem?_eq_some_iff.mp held
    simpa [SharedWalk.setWalker, turn.walkers] using List.mem_set inside new

theorem reached_perm (links : options.followLinks = false) (disk : Disk) {jobs more : List Job}
    (same : jobs.Perm more) : (reached disk options jobs).Perm (reached disk options more) := by
  rw [reached_eq_flatMap links jobs, reached_eq_flatMap links more]
  exact same.flatMap_right _

theorem reached_perm_opened (links : options.followLinks = false) (disk : Disk) (jobs : List Job) :
    (reached disk options jobs).Perm
      (jobs ++ reached disk options (jobs.flatMap (subjobs disk options))) := by
  classical
  induction jobs with
  | nil => exact List.Perm.refl _
  | cons job rest ih =>
    rw [List.perm_iff_count] at ih ⊢
    intro other
    have here := ih other
    rw [reached_cons links, List.flatMap_cons, reached_append links, reached_append links]
    simp only [List.cons_append, List.count_cons, List.count_append] at here ⊢
    omega

/-- The directories still to be opened lose the one that a step opens. -/
theorem step?_reached (links : options.followLinks = false)
    (steps : walk.step? disk options receiver state i = some (next, after, logs)) :
    ∃ lost, (reached disk options (walk.jobs disk options)).Perm
        (walk.opens i ++ reached disk options (next.jobs disk options) ++ lost) ∧
      (next.Unstopped → lost = []) := by
  classical
  obtain ⟨lost, same, whole⟩ := step?_jobs links steps
  refine ⟨reached disk options lost, List.perm_iff_count.mpr fun job => ?_, fun unstopped => ?_⟩
  · have all := (reached_perm links disk same).count_eq job
    have opened := (reached_perm_opened links disk (walk.opens i)).count_eq job
    simp only [reached_append links, List.count_append] at all opened ⊢
    omega
  · rw [whole unstopped, reached_nil]

/-- All entries that are still to be given. -/
def SharedWalk.pending (disk : Disk) (options : Options) (walk : SharedWalk) : List Entry :=
  walk.entries disk options ++
    (reached disk options (walk.jobs disk options)).flatMap (ownEntries disk options)

/-- The entries still to be given lose the one that a step gives. -/
theorem step?_pending (links : options.followLinks = false)
    (steps : walk.step? disk options receiver state i = some (next, after, logs)) :
    ∃ lost, (walk.pending disk options).Perm (walk.gives i ++ next.pending disk options ++ lost) ∧
      (next.Unstopped → lost = []) := by
  classical
  obtain ⟨lostJobs, opened, wholeJobs⟩ := step?_reached links steps
  obtain ⟨lost, given, whole⟩ := step?_entries steps
  refine ⟨lost ++ lostJobs.flatMap (ownEntries disk options), List.perm_iff_count.mpr fun entry => ?_,
    fun unstopped => ?_⟩
  · have ofJobs := (opened.flatMap_right (ownEntries disk options)).count_eq entry
    have ofEntries := given.count_eq entry
    simp only [SharedWalk.pending, List.flatMap_append, List.count_append] at ofJobs ofEntries ⊢
    omega
  · rw [whole unstopped, wholeJobs unstopped]
    rfl

/-- To close a walk is to find all jobs done, or to queue one more end mark. -/
theorem close?_cases (closes : walk.close? = some next) :
    (walk.unfinished = 0 ∧ next = { walk with marks := some walk.walkers.length }) ∨
      ∃ left, walk.marks = some (left + 1) ∧ next = { walk.put none with marks := some left } := by
  unfold SharedWalk.close? at closes
  split at closes
  · split at closes
    · cases closes
      exact .inl ⟨‹_›, rfl⟩
    · cases closes
  · cases closes
  · cases closes
    exact .inr ⟨_, ‹_›, rfl⟩

theorem close?_jobs (closes : walk.close? = some next) :
    next.jobs disk options = walk.jobs disk options := by
  rcases close?_cases closes with ⟨-, rfl⟩ | ⟨left, -, rfl⟩
  · rfl
  · simp [SharedWalk.jobs, SharedWalk.put]

theorem close?_walkers (closes : walk.close? = some next) :
    next.walkers = walk.walkers ∧ next.stopped = walk.stopped ∧ next.crashes = walk.crashes := by
  rcases close?_cases closes with ⟨-, rfl⟩ | ⟨left, -, rfl⟩ <;> exact ⟨rfl, rfl, rfl⟩

theorem close?_pending (closes : walk.close? = some next) :
    next.pending disk options = walk.pending disk options := by
  rw [SharedWalk.pending, SharedWalk.pending, close?_jobs closes, SharedWalk.entries, SharedWalk.entries,
    (close?_walkers closes).1]

/-! ### Walks that are stopped stay so -/

theorem Turn.stopped (turn : Turn disk options receiver walk state old new shared after)
    (goesOn : shared.stopped = false) (whole : new.isCut = false) :
    walk.stopped = false ∧ old.isCut = false := by
  cases turn with
  | tell => simp [SharedWalk.stop, SharedWalk.markDone] at goesOn
  | pass stopped => simp [SharedWalk.markDone, stopped] at goesOn
  | decline | breakOff | lose => cases whole
  | openDirectory goesOn => exact ⟨goesOn, rfl⟩
  | _ => exact ⟨goesOn, rfl⟩

theorem unstopped_of_step? (steps : walk.step? disk options receiver state i = some (next, after, logs))
    (unstopped : next.Unstopped) : walk.Unstopped := by
  obtain ⟨old, new, shared, held, turn, rfl⟩ := turn_of_step? steps
  obtain ⟨before, after, whole, changed⟩ := split_at_slot held
  have kept : ∀ walker ∈ before ++ new :: after, walker.isCut = false := by
    simpa [SharedWalk.setWalker, turn.walkers, changed] using unstopped.noneCut
  obtain ⟨goesOn, uncut⟩ := turn.stopped unstopped.goesOn (kept new (by simp))
  refine ⟨goesOn, fun walker member => ?_⟩
  rw [whole, List.mem_append, List.mem_cons] at member
  rcases member with member | rfl | member
  · exact kept walker (by simp [member])
  · exact uncut
  · exact kept walker (by simp [member])

/-! ### The count of unfinished jobs -/

/-- The thread has taken a job and not marked it done. -/
def Walker.isBusy : Walker → Bool
  | waiting | ended | lost _ => false
  | holding _ | listing _ _ _ _ _ | queueing _ _ | giving _ | stopping _ | breaking _ => true

/-- What holds in all walks: the count is right, and the threads are sent home when nothing is left to do. -/
structure SharedWalk.Sound (walk : SharedWalk) : Prop where
  counted : walk.unfinished = walk.queue.length + walk.walkers.countP Walker.isBusy
  running : walk.marks = none → none ∉ walk.queue ∧ ∀ walker ∈ walk.walkers, walker ≠ .ended
  closed : walk.marks ≠ none →
    (∀ item ∈ walk.queue, item = none) ∧ ∀ walker ∈ walk.walkers, walker.isBusy = false

theorem sound_begin (threads : Nat) (job : Job) (visited : List Place) :
    (SharedWalk.begin threads job visited).Sound where
  counted := by simp [SharedWalk.begin, List.countP_replicate, Walker.isBusy]
  running := by simp [SharedWalk.begin]
  closed := by simp [SharedWalk.begin]

theorem Turn.unfinished (turn : Turn disk options receiver walk state old new shared after)
    (counted : walk.queue.length + (if old.isBusy then 1 else 0) ≤ walk.unfinished) :
    shared.unfinished + walk.queue.length + (if old.isBusy then 1 else 0) =
      walk.unfinished + shared.queue.length + if new.isBusy then 1 else 0 := by
  cases turn with
  | goHome queue | take queue =>
    simp [Walker.isBusy, SharedWalk.markDone, queue] at counted ⊢
    omega
  | pass | given | tell | lose =>
    simp [Walker.isBusy, SharedWalk.markDone, SharedWalk.stop] at counted ⊢
    omega
  | queueJob =>
    simp [Walker.isBusy, SharedWalk.put]
    omega
  | _ => simp [Walker.isBusy]

theorem Turn.sound_queue (turn : Turn disk options receiver walk state old new shared after)
    (running : none ∉ walk.queue) : none ∉ shared.queue ∧ new ≠ .ended := by
  cases turn with
  | goHome queue => simp [queue] at running
  | take queue => exact ⟨by simp [queue] at running; exact running, nofun⟩
  | queueJob => exact ⟨by simpa [SharedWalk.put] using running, nofun⟩
  | _ => exact ⟨running, nofun⟩

theorem Turn.of_idle (turn : Turn disk options receiver walk state old new shared after)
    (idle : old.isBusy = false) (closed : ∀ item ∈ walk.queue, item = none) :
    (∀ item ∈ shared.queue, item = none) ∧ new.isBusy = false := by
  cases turn with
  | goHome queue =>
    rw [queue] at closed
    exact ⟨fun item member => closed item (List.mem_cons_of_mem _ member), rfl⟩
  | take queue => simp [queue] at closed
  | _ => cases idle

theorem sound_step? (sound : walk.Sound)
    (steps : walk.step? disk options receiver state i = some (next, after, logs)) : next.Sound := by
  obtain ⟨old, new, shared, held, turn, rfl⟩ := turn_of_step? steps
  have member := List.mem_of_getElem? held
  have busy := countP_set_add Walker.isBusy held new
  constructor
  · have atLeast : (if old.isBusy then 1 else 0) ≤ walk.walkers.countP Walker.isBusy := by
      split
      · exact List.countP_pos_iff.mpr ⟨old, member, ‹_›⟩
      · exact Nat.zero_le _
    have counted := sound.counted
    have changed := turn.unfinished (by omega)
    simp only [SharedWalk.setWalker, turn.walkers]
    omega
  · intro none
    obtain ⟨noMark, noneEnded⟩ := sound.running (turn.marks ▸ none)
    obtain ⟨noMark, notEnded⟩ := turn.sound_queue noMark
    exact ⟨noMark, by simpa [SharedWalk.setWalker, turn.walkers] using forall_mem_set noneEnded notEnded⟩
  · intro some
    obtain ⟨onlyMarks, idle⟩ := sound.closed (turn.marks ▸ some)
    obtain ⟨onlyMarks, nowIdle⟩ := turn.of_idle (idle old member) onlyMarks
    exact ⟨onlyMarks, by simpa [SharedWalk.setWalker, turn.walkers] using forall_mem_set idle nowIdle⟩

theorem sound_close? (sound : walk.Sound) (closes : walk.close? = some next) : next.Sound := by
  have counted := sound.counted
  rcases close?_cases closes with ⟨allDone, rfl⟩ | ⟨left, marks, rfl⟩
  · -- the count is right, so that nothing is queued and nobody is at work
    have empty : walk.queue = [] := List.length_eq_zero_iff.mp (by omega)
    have idle : walk.walkers.countP Walker.isBusy = 0 := by omega
    refine ⟨counted, by simp, fun _ => ⟨by simp [empty], ?_⟩⟩
    simpa using List.countP_eq_zero.mp idle
  · obtain ⟨onlyMarks, idle⟩ := sound.closed (by simp [marks])
    have stillMarks : ∀ item ∈ walk.queue ++ [none], item = none := by
      simpa [or_imp, forall_and] using onlyMarks
    refine ⟨?_, by simp, fun _ => ⟨stillMarks, idle⟩⟩
    simp only [SharedWalk.put, List.length_append, List.length_singleton]
    omega

theorem marks_of_isOver (atEnd : walk.isOver = true) :
    walk.marks = some 0 ∧ ∀ walker ∈ walk.walkers, walker.isOver = true := by
  simpa [SharedWalk.isOver] using atEnd

theorem idle_of_isOver (sound : walk.Sound) (atEnd : walk.isOver = true) :
    (∀ item ∈ walk.queue, item = none) ∧ ∀ walker ∈ walk.walkers, walker.isBusy = false :=
  sound.closed (by simp [(marks_of_isOver atEnd).1])

theorem step?_of_isOver (atEnd : walk.isOver = true) : walk.step? disk options receiver state i = none := by
  cases steps : walk.step? disk options receiver state i with
  | none => rfl
  | some result =>
    obtain ⟨old, new, shared, held, turn, -⟩ := turn_of_step? steps
    have ended := (marks_of_isOver atEnd).2 old (List.mem_of_getElem? held)
    cases turn <;> cases ended

theorem close?_of_isOver (atEnd : walk.isOver = true) : walk.close? = none := by
  simp [SharedWalk.close?, (marks_of_isOver atEnd).1]

theorem Walker.rests {walker : Walker} (disk : Disk) (options : Options) (idle : walker.isBusy = false) :
    walker.jobs disk options = [] ∧ walker.entries disk options = [] := by
  cases walker with
  | waiting | ended | lost => exact ⟨rfl, rfl⟩
  | _ => cases idle

theorem entries_of_idle (disk : Disk) (options : Options)
    (idle : ∀ walker ∈ walk.walkers, walker.isBusy = false) : walk.entries disk options = [] :=
  List.flatMap_eq_nil_iff.mpr fun walker member => (Walker.rests disk options (idle walker member)).2

/-- A walk in which no job is queued or in work has nothing left to open or to give. -/
theorem nothing_left (disk : Disk) (options : Options) (onlyMarks : ∀ item ∈ walk.queue, item = none)
    (idle : ∀ walker ∈ walk.walkers, walker.isBusy = false) :
    walk.jobs disk options = [] ∧ walk.pending disk options = [] := by
  have noJobs : walk.jobs disk options = [] := by
    rw [SharedWalk.jobs, List.append_eq_nil_iff, List.flatMap_eq_nil_iff]
    exact ⟨by simpa [List.filterMap_eq_nil_iff] using onlyMarks,
      fun walker member => (Walker.rests disk options (idle walker member)).1⟩
  refine ⟨noJobs, ?_⟩
  rw [SharedWalk.pending, noJobs, reached_nil, List.flatMap_nil, List.append_nil,
    entries_of_idle disk options idle]

end SyntaxTally.Walk
