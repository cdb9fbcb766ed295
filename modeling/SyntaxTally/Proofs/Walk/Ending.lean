import SyntaxTally.Proofs.Walk.Account

/-!
# Walks come to an end

A walk makes at most one job for each directory, so that it makes finitely many turns (`Course.length_le`), and
as long as it is not over one of its actors has a step (`exists_step`), unless interrupts have ended all its threads
while jobs were queued (`SharedWalk.Stranded`). `walks_end` puts this together with what the jobs are made for, for
the threads and for the scan.
-/
namespace SyntaxTally.Walk

open Files Ignore

variable {disk : Disk} {options : Options} {first : Job} {σ : Type} {receiver : Receiver σ}
  {walk shared next : SharedWalk} {old new walker : Walker} {state after : σ} {i threads : Nat}
  {logs : List Log.Record} {trace : Trace} {visited : List Place}

/-! ### How much a walk has yet to do -/

/-- A bound on the turns of a thread until it goes home, if it gets no other job. -/
def Walker.toil : Walker → Nat
  | waiting => 1
  | holding _ | stopping _ => 2
  | listing _ _ names jobs entries => 5 * names.length + 3 * jobs.length + entries.length + 4
  | queueing jobs entries => 3 * jobs.length + entries.length + 3
  | giving entries => entries.length + 2
  | breaking _ => 1
  | ended | lost _ => 0

def SharedWalk.toil (walk : SharedWalk) : Nat :=
  2 * (walk.queue.filterMap id).length + (walk.walkers.map Walker.toil).sum

/-- What the opening of a directory adds. -/
def openingToil (disk : Disk) (job : Job) : Nat :=
  5 * (listedNames disk job).length + ((readRules disk job.path).2 ++ barredEntry disk job).length + 3

theorem length_addJob_grows (disk : Disk) (options : Options) (found : Expansion) (job : Job) :
    (addJob disk options found job).jobs.length ≤ found.jobs.length + 1 ∧
      (addJob disk options found job).entries.length ≤ found.entries.length + 1 := by
  unfold addJob
  split
  · split
    · simp
    · split <;> simp
  · simp

theorem length_addChild_le (disk : Disk) (options : Options) (job : Job) (scopes : List Scope)
    (found : Expansion) (name : String) :
    (addChild disk options job scopes found name).jobs.length ≤ found.jobs.length + 1 ∧
      (addChild disk options job scopes found name).entries.length ≤ found.entries.length + 1 := by
  unfold addChild
  dsimp only
  split
  · simp
  split
  · simp
  split
  · simp
  · split
    · simp
    · exact length_addJob_grows ..
  · split <;> simp
  · simp

theorem Turn.toil (turn : Turn disk options receiver walk state old new shared after) :
    2 * (shared.queue.filterMap id).length + new.toil + 1 ≤
      2 * (walk.queue.filterMap id).length + old.toil +
        ((old.opens walk.stopped).map (openingToil disk)).sum := by
  cases turn with
  | goHome queue => simp [queue, SharedWalk.markDone, Walker.toil, Walker.opens]
  | take queue =>
    simp [queue, Walker.toil, Walker.opens]
    omega
  | openDirectory goesOn =>
    simp [goesOn, Walker.toil, Walker.opens, openingToil]
    omega
  | @list job scopes name names jobs entries found adds =>
    obtain ⟨moreJobs, moreEntries⟩ :=
      length_addChild_le disk options job scopes ⟨jobs, entries, [], walk.visited⟩ name
    rw [← adds] at moreJobs moreEntries
    simp only [Walker.toil, Walker.opens, List.map_nil, List.sum_nil, List.length_cons] at moreJobs moreEntries ⊢
    omega
  | queueJob =>
    simp [SharedWalk.put, Walker.toil, Walker.opens]
    omega
  | give | decline | breakOff | listed | queued =>
    simp only [Walker.toil, Walker.opens, List.length_cons]
    omega
  | _ => simp [SharedWalk.markDone, SharedWalk.stop, Walker.toil, Walker.opens]

theorem step?_toil (steps : walk.step? disk options receiver state i = some (next, after, logs)) :
    next.toil + 1 ≤ walk.toil + ((walk.opens i).map (openingToil disk)).sum := by
  obtain ⟨old, new, shared, held, turn, rfl⟩ := turn_of_step? steps
  have here := turn.toil
  have others := sum_map_set_add Walker.toil held new
  simp only [SharedWalk.toil, SharedWalk.opens, SharedWalk.setWalker, turn.walkers, held, Option.map_some,
    Option.getD_some] at here others ⊢
  omega

theorem close?_toil (closes : walk.close? = some next) : next.toil = walk.toil := by
  rcases close?_cases closes with ⟨-, rfl⟩ | ⟨left, -, rfl⟩
  · rfl
  · simp [SharedWalk.toil, SharedWalk.put]

theorem Course.toil {begun : SharedWalk} (course : Course disk options begun trace walk) :
    trace.length + walk.toil ≤ begun.toil + (trace.opened.map (openingToil disk)).sum := by
  induction course with
  | refl => simp [Trace.opened]
  | step _ steps ih =>
    have here := step?_toil steps
    simp only [Trace.opened, List.flatMap_append, List.flatMap_singleton, List.map_append, List.sum_append,
      List.length_append, List.length_singleton] at ih ⊢
    omega
  | close _ closes ih =>
    rw [close?_toil closes]
    exact ih

theorem length_namesIn (disk : Disk) (place : Place) :
    (disk.namesIn place).length = disk.items.countP fun entry => (Disk.nameIn? place entry.1).isSome := by
  rw [Disk.namesIn_eq, List.length_insertionSort, List.filterMap_map, List.length_filterMap_eq_countP]
  rfl

theorem countP_nameIn?_le {places : List Place} (once : places.Nodup) (entry : Place) :
    places.countP (fun place => (Disk.nameIn? place entry).isSome) ≤ 1 := by
  have only : ∀ place, (Disk.nameIn? place entry).isSome = true → place = entry.dropLast := by
    intro place lies
    obtain ⟨name, given⟩ := Option.isSome_iff_exists.mp lies
    rw [Disk.nameIn?_eq_some.mp given, List.dropLast_concat]
  calc places.countP (fun place => (Disk.nameIn? place entry).isSome)
      ≤ places.countP (· == entry.dropLast) :=
        List.countP_mono_left fun place _ lies => beq_iff_eq.mpr (only place lies)
    _ ≤ 1 := List.nodup_iff_count_le_one.mp once _

theorem sum_length_namesIn_le (disk : Disk) {places : List Place} (once : places.Nodup) :
    (places.map fun place => (disk.namesIn place).length).sum ≤ disk.items.length := by
  simp only [length_namesIn]
  induction disk.items with
  | nil => simp
  | cons entry rest ih =>
    have here := countP_nameIn?_le once entry.1
    rw [sum_countP_cons places fun place (entry : Place × Item) => (Disk.nameIn? place entry.1).isSome,
      List.length_cons]
    omega

theorem length_readRules_le (disk : Disk) (path : Path) : (readRules disk path).2.length ≤ 2 := by
  have single : ∀ name, (readIgnoreFile disk (path.child name)).2.length ≤ 1 := by
    intro name
    rcases readIgnoreFile_failures disk (path.child name) with none | ⟨fault, one⟩
    · simp [none]
    · simp [one]
  have first := single ".gitignore"
  have second := single ".ignore"
  simp only [readRules, ignoreFileNames, List.flatMap_cons, List.flatMap_nil, List.length_append, List.length_nil]
  omega

theorem openingToil_le (disk : Disk) (job : Job) :
    openingToil disk job ≤ 5 * (disk.namesIn job.place).length + 6 := by
  have rules := length_readRules_le disk job.path
  have barred : (barredEntry disk job).length ≤ 1 := by
    unfold barredEntry
    split <;> simp
  have names : (listedNames disk job).length ≤ (disk.namesIn job.place).length := by
    unfold listedNames
    split <;> simp
  rw [openingToil, List.length_append]
  omega

theorem sum_openingToil_le (disk : Disk) (opened : List Job) :
    (opened.map (openingToil disk)).sum ≤
      5 * (opened.map fun job => (disk.namesIn job.place).length).sum + 6 * opened.length := by
  induction opened with
  | nil => simp
  | cons job rest ih =>
    have here := openingToil_le disk job
    simp only [List.map_cons, List.sum_cons, List.length_cons]
    omega

/-- However the threads take turns, they make this many at most. -/
theorem Course.length_le (begins : Begins disk options first visited)
    (course : Course disk options (.begin threads first visited) trace walk) :
    trace.length ≤ 11 * (disk.items.length + 1) + threads := by
  have accounts := course.accounts begins
  have few := accounts.among.length_le.trans accounts.few
  have once : (trace.opened.map Job.place).Nodup := by
    obtain ⟨kept, same, among⟩ := accounts.among
    exact (same.map _).nodup_iff.mp ((among.map Job.place).nodup accounts.once)
  have names := sum_length_namesIn_le disk once
  have toil := sum_openingToil_le disk trace.opened
  have spent := course.toil
  have begun : (SharedWalk.begin threads first visited).toil = 2 + threads := by
    simp [SharedWalk.toil, SharedWalk.begin, Walker.toil]
  rw [List.map_map, Function.comp_def] at names
  omega

/-! ### A walk that is not over goes on -/

def Walker.isEnded : Walker → Bool
  | ended => true
  | _ => false

/-- Once the walk is closed there is an end mark, queued or still to be queued, for each thread that has not
gone home. -/
def SharedWalk.Dismisses (walk : SharedWalk) : Prop :=
  ∀ left, walk.marks = some left →
    left + walk.queue.length + walk.walkers.countP Walker.isEnded = walk.walkers.length

theorem dismisses_begin (threads : Nat) (job : Job) (visited : List Place) :
    (SharedWalk.begin threads job visited).Dismisses := by
  intro left closed
  cases closed

theorem Turn.goes_home (turn : Turn disk options receiver walk state old new shared after)
    (idle : old.isBusy = false) (onlyMarks : ∀ item ∈ walk.queue, item = none) :
    shared.queue.length + 1 = walk.queue.length ∧ old.isEnded = false ∧ new.isEnded = true := by
  cases turn with
  | goHome queue => exact ⟨by simp [queue, SharedWalk.markDone], rfl, rfl⟩
  | take queue => simp [queue] at onlyMarks
  | _ => cases idle

theorem dismisses_step? (sound : walk.Sound) (dismisses : walk.Dismisses)
    (steps : walk.step? disk options receiver state i = some (next, after, logs)) : next.Dismisses := by
  obtain ⟨old, new, shared, held, turn, rfl⟩ := turn_of_step? steps
  intro left closed
  have marks : walk.marks = some left := turn.marks ▸ closed
  obtain ⟨onlyMarks, idle⟩ := sound.closed (by simp [marks])
  obtain ⟨fewer, awake, gone⟩ := turn.goes_home (idle old (List.mem_of_getElem? held)) onlyMarks
  have ended := countP_set_add Walker.isEnded held new
  have before := dismisses left marks
  simp only [awake, gone, SharedWalk.setWalker, turn.walkers, List.length_set, Bool.false_eq_true, if_false,
    if_true] at ended ⊢
  omega

theorem dismisses_close? (sound : walk.Sound) (dismisses : walk.Dismisses)
    (closes : walk.close? = some next) : next.Dismisses := by
  intro left closed
  cases before : walk.marks with
  | none =>
    have awake : walk.walkers.countP Walker.isEnded = 0 := by
      rw [List.countP_eq_zero]
      intro walker member ended
      cases walker with
      | ended => exact (sound.running before).2 _ member rfl
      | _ => cases ended
    have counted := sound.counted
    rcases close?_cases closes with ⟨allDone, rfl⟩ | ⟨more, marks, rfl⟩
    · obtain rfl : walk.walkers.length = left := Option.some.inj closed
      simp only
      omega
    · simp [before] at marks
  | some still =>
    have here := dismisses still before
    cases still with
    | zero => simp [SharedWalk.close?, before] at closes
    | succ still =>
      simp only [SharedWalk.close?, before, Option.some.injEq] at closes
      subst closes
      obtain rfl : still = left := Option.some.inj closed
      simp only [SharedWalk.put, List.length_append, List.length_singleton]
      omega

theorem Course.dismisses {begun : SharedWalk} (sound : begun.Sound) (dismisses : begun.Dismisses)
    (course : Course disk options begun trace walk) : walk.Dismisses := by
  induction course with
  | refl => exact dismisses
  | step before steps ih => exact dismisses_step? (before.sound sound) ih steps
  | close before closes ih => exact dismisses_close? (before.sound sound) ih closes

/-- The thread waits for the receiver to take an entry. -/
def SharedWalk.Blocked {σ : Type} (receiver : Receiver σ) (walk : SharedWalk) (state : σ) (i : Nat) : Prop :=
  ∃ entry rest, walk.walkers[i]? = some (.giving (entry :: rest)) ∧ receiver state entry = none

theorem step?_of_busy (held : walk.walkers[i]? = some walker) (busy : walker.isBusy = true)
    (free : ¬ walk.Blocked receiver state i) :
    ∃ next, walk.step? disk options receiver state i = some next := by
  unfold SharedWalk.step?
  rw [held]
  cases walker with
  | waiting | ended | lost => cases busy
  | holding | stopping | breaking => exact ⟨_, rfl⟩
  | listing job scopes names jobs entries => cases names <;> exact ⟨_, rfl⟩
  | queueing jobs entries => cases jobs <;> exact ⟨_, rfl⟩
  | giving entries =>
    cases entries with
    | nil => exact ⟨_, rfl⟩
    | cons entry rest =>
      cases answer : receiver state entry with
      | none => exact absurd ⟨entry, rest, held, answer⟩ free
      | some told => simp [SharedWalk.give?, answer]

theorem step?_of_waiting (held : walk.walkers[i]? = some .waiting) (queued : walk.queue ≠ []) (state : σ) :
    ∃ next, walk.step? disk options receiver state i = some next := by
  unfold SharedWalk.step?
  rw [held]
  cases queue : walk.queue with
  | nil => exact absurd queue queued
  | cons item rest => cases item <;> simp [SharedWalk.take?, queue]

/-- Interrupts have ended all threads while jobs were queued, and nobody will take these. -/
structure SharedWalk.Stranded (walk : SharedWalk) : Prop where
  unclosed : walk.marks = none
  queued : walk.queue ≠ []
  allLost : ∀ walker ∈ walk.walkers, ∃ crash, walker = .lost crash

theorem close?_of_idle (sound : walk.Sound) (idle : ∀ walker ∈ walk.walkers, walker.isBusy = false)
    (empty : walk.queue = []) (marked : walk.marks ≠ some 0) : ∃ next, walk.close? = some next := by
  unfold SharedWalk.close?
  cases marks : walk.marks with
  | none =>
    have counted := sound.counted
    rw [empty, List.countP_eq_zero.mpr fun walker member => by simp [idle walker member]] at counted
    exact ⟨_, if_pos counted⟩
  | some left =>
    cases left with
    | succ left => exact ⟨_, rfl⟩
    | zero => exact absurd marks marked

/-- A thread that waits gets something from the queue, or the walk is to be closed. -/
theorem step_of_waiting (sound : walk.Sound) (dismisses : walk.Dismisses)
    (idle : ∀ walker ∈ walk.walkers, walker.isBusy = false) (held : walk.walkers[i]? = some .waiting)
    (receiver : Receiver σ) (state : σ) :
    (∃ i next, walk.step? disk options receiver state i = some next) ∨ ∃ next, walk.close? = some next := by
  by_cases empty : walk.queue = []
  · refine .inr (close?_of_idle sound idle empty fun marks => ?_)
    -- then as many threads would have gone home as there are
    have all := dismisses 0 marks
    rw [empty, List.length_nil, Nat.zero_add, List.countP_eq_length] at all
    exact nomatch all _ (List.mem_of_getElem? held)
  · obtain ⟨next, steps⟩ := step?_of_waiting held empty state
    exact .inl ⟨i, next, steps⟩

/-- A walk whose threads are all gone is over or stranded, or it is to be closed. -/
theorem close_of_gone (sound : walk.Sound) (gone : ∀ walker ∈ walk.walkers, walker.isOver = true)
    (running : walk.isOver = false) : (∃ next, walk.close? = some next) ∨ walk.Stranded := by
  have idle : ∀ walker ∈ walk.walkers, walker.isBusy = false := by
    intro walker member
    have finished := gone walker member
    cases walker with
    | ended | lost => rfl
    | _ => cases finished
  by_cases unclosed : walk.marks = none
  · by_cases empty : walk.queue = []
    · exact .inl (close?_of_idle sound idle empty (by simp [unclosed]))
    · refine .inr ⟨unclosed, empty, fun walker member => ?_⟩
      have finished := gone walker member
      cases walker with
      | lost crash => exact ⟨crash, rfl⟩
      | ended => exact absurd rfl ((sound.running unclosed).2 _ member)
      | _ => cases finished
  · left
    cases marks : walk.marks with
    | none => exact absurd marks unclosed
    | some left =>
      cases left with
      | zero =>
        have atEnd : walk.isOver = true := by simpa [SharedWalk.isOver, marks] using gone
        rw [running] at atEnd
        cases atEnd
      | succ left => simp [SharedWalk.close?, marks]

/-- As long as a walk is neither over nor stranded, one of its threads has a step or waits for the receiver, or the
walk is to be closed. -/
theorem exists_step (sound : walk.Sound) (dismisses : walk.Dismisses) (running : walk.isOver = false)
    (receiver : Receiver σ) (state : σ) :
    (∃ i, walk.Blocked receiver state i) ∨ ((∃ i next, walk.step? disk options receiver state i = some next) ∨
      ∃ next, walk.close? = some next) ∨ walk.Stranded := by
  by_cases busy : ∃ walker ∈ walk.walkers, walker.isBusy = true
  · obtain ⟨walker, member, busy⟩ := busy
    obtain ⟨i, held⟩ := List.mem_iff_getElem?.mp member
    by_cases blocked : walk.Blocked receiver state i
    · exact .inl ⟨i, blocked⟩
    · obtain ⟨next, steps⟩ := step?_of_busy held busy blocked
      exact .inr (.inl (.inl ⟨i, next, steps⟩))
  have idle : ∀ walker ∈ walk.walkers, walker.isBusy = false := fun walker member =>
    Bool.eq_false_iff.mpr fun works => busy ⟨walker, member, works⟩
  by_cases gone : ∀ walker ∈ walk.walkers, walker.isOver = true
  · exact .inr ((close_of_gone sound gone running).imp_left .inr)
  · -- a thread that neither works nor is gone waits
    obtain ⟨walker, member, awake⟩ : ∃ walker ∈ walk.walkers, walker.isOver = false := by simpa using gone
    obtain ⟨i, held⟩ := List.mem_iff_getElem?.mp member
    cases walker with
    | waiting => exact .inr (.inl (step_of_waiting sound dismisses idle held receiver state))
    | ended | lost => cases awake
    | _ => cases idle _ member

theorem SharedWalk.Stranded.step? (stranded : walk.Stranded) (receiver : Receiver σ) (state : σ) (i : Nat) :
    walk.step? disk options receiver state i = none := by
  cases held : walk.walkers[i]? with
  | none => simp [SharedWalk.step?, held]
  | some walker =>
    obtain ⟨crash, rfl⟩ := stranded.allLost walker (List.mem_of_getElem? held)
    simp [SharedWalk.step?, held]

theorem SharedWalk.Stranded.close? (sound : walk.Sound) (stranded : walk.Stranded) : walk.close? = none := by
  have unfinished : walk.unfinished ≠ 0 := by
    have some := List.length_pos_iff.mpr stranded.queued
    have counted := sound.counted
    omega
  simp [SharedWalk.close?, stranded.unclosed, unfinished]

/-! ### Walks without interrupts -/

/-- The thread was ended by an interrupt, or is about to be. -/
def Walker.isBroken : Walker → Bool
  | breaking _ | lost _ => true
  | _ => false

/-- The receiver never answers by an interrupt. -/
def Steady {σ : Type} (receiver : Receiver σ) : Prop :=
  ∀ state entry crash after, receiver state entry ≠ some (.interrupt crash, after)

theorem Willing.steady (willing : Willing receiver) : Steady receiver := by
  intro state entry crash after answer
  cases willing state entry _ after answer

def SharedWalk.Unbroken (walk : SharedWalk) : Prop := ∀ walker ∈ walk.walkers, walker.isBroken = false

theorem unbroken_begin (threads : Nat) (job : Job) (visited : List Place) :
    (SharedWalk.begin threads job visited).Unbroken := by
  simp [SharedWalk.Unbroken, SharedWalk.begin, Walker.isBroken]

theorem unbroken_step? (steady : ∀ entry crash after, receiver state entry ≠ some (.interrupt crash, after))
    (unbroken : walk.Unbroken) (steps : walk.step? disk options receiver state i = some (next, after, logs)) :
    next.Unbroken := by
  obtain ⟨old, new, shared, held, turn, rfl⟩ := turn_of_step? steps
  have whole := unbroken old (List.mem_of_getElem? held)
  have stillWhole : new.isBroken = false := by
    cases turn with
    | breakOff answer => exact absurd answer (steady _ _ _)
    | lose => cases whole
    | _ => rfl
  simpa [SharedWalk.Unbroken, SharedWalk.setWalker, turn.walkers] using forall_mem_set unbroken stillWhole

theorem unbroken_close? (unbroken : walk.Unbroken) (closes : walk.close? = some next) : next.Unbroken := by
  rw [SharedWalk.Unbroken, (close?_walkers closes).1]
  exact unbroken

theorem Runs.unbroken {begun : SharedWalk} {before : σ} (steady : Steady receiver) (unbroken : begun.Unbroken)
    (runs : Runs disk options receiver begun before trace walk state) : walk.Unbroken := by
  induction runs with
  | refl => exact unbroken
  | step _ steps ih => exact unbroken_step? (steady _) ih steps
  | close _ closes ih => exact unbroken_close? ih closes

theorem SharedWalk.Unbroken.not_stranded (unbroken : walk.Unbroken) (manned : walk.walkers ≠ []) :
    ¬ walk.Stranded := by
  intro stranded
  obtain ⟨walker, member⟩ := List.exists_mem_of_ne_nil _ manned
  obtain ⟨crash, rfl⟩ := stranded.allLost walker member
  exact nomatch unbroken _ member

theorem length_walkers_step? (steps : walk.step? disk options receiver state i = some (next, after, logs)) :
    next.walkers.length = walk.walkers.length := by
  obtain ⟨old, new, shared, held, turn, rfl⟩ := turn_of_step? steps
  simp [SharedWalk.setWalker, turn.walkers]

theorem Course.length_walkers {begun : SharedWalk} (course : Course disk options begun trace walk) :
    walk.walkers.length = begun.walkers.length := by
  induction course with
  | refl => rfl
  | step _ steps ih => rw [length_walkers_step? steps, ih]
  | close _ closes ih => rw [(close?_walkers closes).1, ih]

/-! ### Runs to the end -/

def Prompt {σ : Type} (receiver : Receiver σ) : Prop := ∀ state entry, receiver state entry ≠ none

/-- In how many steps a walk is still to be closed. -/
def SharedWalk.closings (walk : SharedWalk) : Nat :=
  match walk.marks with
  | none => walk.walkers.length + 1
  | some left => left

theorem closings_step? (steps : walk.step? disk options receiver state i = some (next, after, logs)) :
    next.closings = walk.closings := by
  obtain ⟨old, new, shared, held, turn, rfl⟩ := turn_of_step? steps
  simp [SharedWalk.closings, SharedWalk.setWalker, turn.marks, turn.walkers]

theorem closings_close? (closes : walk.close? = some next) : next.closings + 1 = walk.closings := by
  cases marks : walk.marks with
  | none =>
    simp only [SharedWalk.close?, marks] at closes
    split at closes
    · cases closes
      simp [SharedWalk.closings, marks]
    · cases closes
  | some left =>
    cases left with
    | zero => simp [SharedWalk.close?, marks] at closes
    | succ left =>
      simp only [SharedWalk.close?, marks, Option.some.injEq] at closes
      simp [SharedWalk.closings, marks, ← closes]

theorem Course.goes_on (course : Course disk options (.begin threads first visited) trace walk)
    (running : walk.isOver = false) (prompt : Prompt receiver) :
    ((∃ i next, walk.step? disk options receiver state i = some next) ∨ ∃ next, walk.close? = some next) ∨
      walk.Stranded := by
  have begun := sound_begin threads first visited
  have dismisses := course.dismisses begun (dismisses_begin threads first visited)
  rcases exists_step (course.sound begun) dismisses running receiver state with ⟨i, entry, rest, -, silent⟩ | goesOn
  · exact absurd silent (prompt state entry)
  · exact goesOn

/-- The walk will make no further step: it is over, or nobody is left to go on. -/
def SharedWalk.Rests (walk : SharedWalk) : Prop := walk.isOver = true ∨ walk.Stranded

theorem Course.rests_of_stuck (course : Course disk options (.begin threads first visited) trace walk)
    (prompt : Prompt receiver) (state : σ) (stuck : ∀ i, walk.step? disk options receiver state i = none)
    (closed : walk.close? = none) : walk.Rests := by
  cases atEnd : walk.isOver with
  | true => exact .inl atEnd
  | false =>
    rcases course.goes_on atEnd prompt with (⟨i, next, steps⟩ | ⟨next, closes⟩) | stranded
    · rw [stuck i] at steps
      cases steps
    · rw [closed] at closes
      cases closes
    · exact .inr stranded

theorem step?_of_firstStep? (stuck : walk.firstStep? disk options receiver state = none) (i : Nat) :
    walk.step? disk options receiver state i = none := by
  by_cases inside : i < walk.walkers.length
  · exact List.findSome?_eq_none_iff.mp stuck i (List.mem_range.mpr inside)
  · simp [SharedWalk.step?, List.getElem?_eq_none (Nat.le_of_not_lt inside)]

/-- The run in which always the first thread makes a step goes on as long as there is anybody to go on. -/
theorem rests_run {most fuel : Nat} {before : σ} (prompt : Prompt receiver)
    (bounded : ∀ trace walk, Course disk options (.begin threads first visited) trace walk → trace.length ≤ most)
    (runs : Runs disk options receiver (.begin threads first visited) before trace walk state)
    (enough : most + walk.closings ≤ fuel + trace.length) (logs : List Log.Record) :
    (walk.run disk options receiver fuel state logs).1.Rests := by
  -- each step uses up one of the turns that are left below the bound, or one of the closings
  induction fuel generalizing trace walk state logs with
  | zero =>
    have reached := bounded trace walk runs.course
    show walk.Rests
    refine runs.course.rests_of_stuck prompt state (fun i => ?_) ?_
    · cases steps : walk.step? disk options receiver state i with
      | none => rfl
      | some result =>
        have further := bounded _ _ (runs.course.step steps)
        rw [List.length_append, List.length_singleton] at further
        omega
    · cases closes : walk.close? with
      | none => rfl
      | some next =>
        have less := closings_close? closes
        omega
  | succ fuel ih =>
    unfold SharedWalk.run
    split
    · rename_i steps
      obtain ⟨i, -, steps⟩ := List.exists_of_findSome?_eq_some steps
      refine ih (runs.step steps) ?_ _
      rw [closings_step? steps, List.length_append, List.length_singleton]
      omega
    · rename_i stuck
      split
      · rename_i closes
        have less := closings_close? closes
        exact ih (runs.close closes) (by omega) _
      · rename_i closed
        exact runs.course.rests_of_stuck prompt state (step?_of_firstStep? stuck) closed

/-- The bound on the steps of a run is never met. -/
theorem rests_of_run (begins : Begins disk options first visited) (prompt : Prompt receiver) :
    (SharedWalk.run disk options receiver (SharedWalk.mostSteps disk threads) (.begin threads first visited)
      state logs).1.Rests := by
  refine rests_run prompt (fun trace walk course => course.length_le begins) .refl ?_ logs
  simp only [SharedWalk.closings, SharedWalk.begin, SharedWalk.mostSteps, List.length_replicate, List.length_nil]
  omega

theorem isOver_of_run (begins : Begins disk options first visited) (manned : 0 < threads) (prompt : Prompt receiver)
    (steady : Steady receiver) :
    (SharedWalk.run disk options receiver (SharedWalk.mostSteps disk threads) (.begin threads first visited)
      state logs).1.isOver = true := by
  have begun : Runs disk options receiver (.begin threads first visited) state []
      (.begin threads first visited) state := .refl
  obtain ⟨trace, runs⟩ := begun.run (SharedWalk.mostSteps disk threads) logs
  refine (rests_of_run begins prompt).resolve_right ?_
  refine (runs.unbroken steady (unbroken_begin threads first visited)).not_stranded fun none => ?_
  have same := runs.course.length_walkers
  rw [none, SharedWalk.begin, List.length_replicate] at same
  exact absurd same.symm (Nat.ne_of_gt manned)

theorem Course.at_end (course : Course disk options (.begin threads first visited) trace walk)
    (atEnd : walk.isOver = true) :
    walk.unlisted disk options = [] ∧
      (walk.Unstopped → trace.opened.Perm (first :: trace.created disk options)) := by
  obtain ⟨onlyMarks, idle⟩ := idle_of_isOver (course.sound (sound_begin threads first visited)) atEnd
  obtain ⟨lost, made, whole⟩ := course.made
  refine ⟨unlisted_of_idle idle, fun unstopped => ?_⟩
  rw [foundJobs_of_idle onlyMarks idle, whole unstopped, List.append_nil, List.append_nil] at made
  exact made.symm

/-- A directory that a rule names, a link to it that no rule names, a link to the top and a link to itself. -/
def loopDisk : Disk where
  items := [([".gitignore"], .file [47, 97, 47, 10]), (["a"], .directory), (["a", "x.py"], .file []),
    (["b"], .link "a"), (["c"], .link "."), (["d"], .link "d")]
  here := []
  home := "/"
  locked := []
  sealed := []
  tree := by decide

theorem start_loopDisk : start loopDisk following ⟨1, []⟩ =
    .ok (.tree topJob [[]] []) := by
  decide +kernel

end SyntaxTally.Walk
