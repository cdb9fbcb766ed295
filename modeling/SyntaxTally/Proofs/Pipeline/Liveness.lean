import SyntaxTally.Proofs.Pipeline.Settlement
import SyntaxTally.Proofs.Walk.Ending

/-!
# Teams never get stuck

Walking threads wait for room in the queue, the feeder for the walk and for room, the workers for files and end
marks, and the run for all of them. `team_never_stuck` says that they never wait for each other: until the run is
over one of them has a step, whatever has crashed and in whatever order the steps were made. The invariant
`Alive` counts the jobs of the walk, the end marks of its threads and those of the workers. Only a receiver of walk
errors that interrupts all threads of the walk leaves the team without a step (`interrupt_strands_team`).
-/
namespace SyntaxTally

open Files Walk

namespace Team

variable {σ : Type} {pipeline : Pipeline σ} {capacity : Nat} {team next : Team σ}

/-! ### What all schedules keep -/

/-- What holds of a team in every schedule, whatever goes wrong. -/
structure Alive (team : Team σ) : Prop where
  sound : team.walk.Sound
  dismisses : team.walk.Dismisses
  fed : team.feeder ≠ .walking → team.walk.isOver = true
  well : team.halt = none → ∀ task ∈ team.collected, ∃ sum, team.ended? task = some (.well sum)
  cancels : team.cancelled = true ↔ team.halt ≠ none
  marked : team.cancelled = false → Marked team

theorem Move.sound (move : Move pipeline capacity team next) (sound : team.walk.Sound)
    (dismisses : team.walk.Dismisses) : next.walk.Sound ∧ next.walk.Dismisses := by
  cases move with
  | walk steps | note steps | refuse steps | put steps =>
    exact ⟨sound_step? sound steps, dismisses_step? sound dismisses steps⟩
  | close closes => exact ⟨sound_close? sound closes, dismisses_close? sound dismisses closes⟩
  | _ => exact ⟨sound, dismisses⟩

theorem Move.cancels (move : Move pipeline capacity team next)
    (cancels : team.cancelled = true ↔ team.halt ≠ none) : next.cancelled = true ↔ next.halt ≠ none := by
  cases move with
  | blame => simp
  | _ => exact cancels

theorem Move.alive (move : Move pipeline capacity team next) (alive : Alive team) : Alive next := by
  obtain ⟨sound, dismisses⟩ := move.sound alive.sound alive.dismisses
  refine ⟨sound, dismisses, move.waits_for_walk alive.fed, move.well alive.well, move.cancels alive.cancels, ?_⟩
  intro uncancelled
  exact move.marked uncancelled alive.fed (alive.marked (move.uncancelled uncancelled))

theorem Step.alive (step : Step pipeline capacity team next) (alive : Alive team) : Alive next := by
  cases step with
  | timely steps => exact (move_of_step? steps).alive alive
  | @late _ next steps =>
    have move := move_of_step? steps
    cases cancelled : team.cancelled with
    | false =>
      -- the flag is not set, so that the step is none too late
      have same : { team with cancelled := false } = team := by rw [← cancelled]
      rw [same] at move
      exact move.alive alive
    | true =>
      obtain ⟨sound, dismisses⟩ := move.sound alive.sound alive.dismisses
      have halted : next.halt ≠ none := fun unhalted => alive.cancels.mp cancelled (move.unhalted unhalted)
      exact ⟨sound, dismisses, move.waits_for_walk alive.fed, move.well alive.well,
        ⟨fun _ => halted, fun _ => rfl⟩, fun uncancelled => by cases uncancelled⟩

theorem Reaches.alive (reaches : Reaches pipeline capacity team next) (alive : Alive team) : Alive next := by
  induction reaches with
  | refl => exact alive
  | tail _ step ih => exact step.alive ih

theorem alive_fresh {walk : SharedWalk} {work : List (Option Path)} {workers : Nat} (staffed : 0 < workers)
    (noMark : ∀ item ∈ work, item ≠ none) (sound : walk.Sound) (dismisses : walk.Dismisses)
    (progress : Progress σ) : Alive (fresh walk work workers progress) where
  sound := sound
  dismisses := dismisses
  fed left := absurd rfl left
  well _ task collected := by cases collected
  cancels := by simp [fresh]
  marked _ := marked_fresh staffed noMark

theorem dismisses_noWalk : noWalk.Dismisses := by
  intro left marks
  cases marks
  rfl

theorem alive_begin {threads workers : Nat} (staffed : 0 < workers) (progress : Progress σ)
    (first : Except Crash Start) : Alive (.begin threads workers progress first) := by
  rcases first with crash | ⟨path | ⟨job, visited, logs⟩⟩
  · have marked : Marked (fresh noWalk [] workers progress) := marked_fresh staffed nofun
    have marks := marked.marks
    exact ⟨sound_noWalk, dismisses_noWalk, fun _ => rfl, fun _ => nofun, by simp [begin],
      fun _ => ⟨marked.staffed, by simpa [begin, fresh, Feeder.marksLeft] using marks, marked.order, marked.last⟩⟩
  · exact alive_fresh staffed (by simp) sound_noWalk dismisses_noWalk progress
  · exact alive_fresh staffed (by simp) (sound_begin threads job visited) (dismisses_begin threads job visited) _

/-! ### Who has a step -/

theorem step?_of_analyzing {i : Nat} {path : Path} {sum : Option Counts}
    (held : team.workers[i]? = some (.analyzing path sum)) :
    ∃ next, team.step? pipeline capacity (.worker i) = some next := by
  simp only [step?, workerStep?, held]
  split <;> exact ⟨_, rfl⟩

theorem step?_of_waiting {i : Nat} {sum : Option Counts} (held : team.workers[i]? = some (.waiting sum))
    (ready : team.cancelled = true ∨ team.work ≠ []) :
    ∃ next, team.step? pipeline capacity (.worker i) = some next := by
  simp only [step?, workerStep?, held]
  split
  · exact ⟨_, rfl⟩
  · rename_i goesOn
    cases work : team.work with
    | nil => simp [work, goesOn] at ready
    | cons item rest => cases item <;> exact ⟨_, rfl⟩

theorem step?_of_closing {marks : Nat} {halt : Option Halt} (closing : team.feeder = .closing marks halt)
    (ready : marks = 0 ∨ team.cancelled = true ∨ team.hasRoom capacity = true) :
    ∃ next, team.step? pipeline capacity .feeder = some next := by
  simp only [step?, feederStep?, closing]
  cases marks with
  | zero => exact ⟨_, rfl⟩
  | succ marks =>
    rcases ready with none | cancelled | room
    · cases none
    · exact ⟨_, if_pos cancelled⟩
    · cases cancelled : team.cancelled with
      | true => exact ⟨_, rfl⟩
      | false => exact ⟨_, if_pos room⟩

theorem receiver_ne_none (entry : Entry) (ready : team.cancelled = true ∨ team.hasRoom capacity = true) :
    receiver pipeline capacity team entry ≠ none := by
  cases entry with
  | failure path fault =>
    simp only [receiver]
    split <;> simp
  | file path =>
    simp only [receiver]
    split
    · simp
    · rename_i goesOn
      rw [if_pos (ready.resolve_left goesOn)]
      simp

/-- Some actor has a step. -/
def GoesOn (pipeline : Pipeline σ) (capacity : Nat) (team : Team σ) : Prop :=
  ∃ actor next, team.step? pipeline capacity actor = some next

theorem goesOn_of_walking (alive : Alive team) (walking : team.feeder = .walking)
    (ready : team.cancelled = true ∨ team.hasRoom capacity = true) :
    GoesOn pipeline capacity team ∨ team.walk.Stranded := by
  cases running : team.walk.isOver with
  | true =>
    refine .inl ⟨.feeder, { team with feeder := .closing team.workers.length team.walk.ending }, ?_⟩
    simp [step?, feederStep?, walking, running]
  | false =>
    rcases Walk.exists_step alive.sound alive.dismisses running (receiver pipeline capacity) team with
      ⟨i, entry, rest, -, silent⟩ | (⟨i, result, steps⟩ | ⟨walk, closes⟩) | stranded
    · exact absurd silent (receiver_ne_none entry ready)
    · exact .inl ⟨.walker i, _, congrArg (Option.map _) steps⟩
    · exact .inl ⟨.closer, _, congrArg (Option.map _) closes⟩
    · exact .inr stranded

theorem step?_of_ended {task : Task} {ended : Ended} (unhalted : team.halt = none)
    (fresh : task ∉ team.collected) (ends : team.ended? task = some ended) :
    ∃ next, team.step? pipeline capacity (.collector task) = some next := by
  have still : ¬ (team.halt.isSome || team.collected.contains task) = true := by simp [unhalted, fresh]
  simp only [step?, collectorStep?, if_neg still, ends]
  exact ⟨_, rfl⟩

/-! ### Somebody always has -/

theorem mem_tasks_iff {task : Task} :
    task ∈ team.tasks ↔ task = .feeder ∨ ∃ i worker, task = .worker i ∧ team.workers[i]? = some worker := by
  constructor
  · intro listed
    simp only [tasks, List.mem_cons, List.mem_map, List.mem_range] at listed
    rcases listed with rfl | ⟨i, inside, rfl⟩
    · exact .inl rfl
    · exact .inr ⟨i, team.workers[i], rfl, List.getElem?_eq_getElem inside⟩
  · rintro (rfl | ⟨i, worker, rfl, held⟩)
    · simp [tasks]
    · exact mem_tasks_worker held

/-- In a run that is cancelled, every task that has not ended can come to its end. -/
theorem goesOn_of_cancelled (alive : Alive team) (cancelled : team.cancelled = true)
    (running : team.isOver = false) : GoesOn pipeline capacity team ∨ team.walk.Stranded := by
  have halted : team.halt.isSome = true := Option.isSome_iff_ne_none.mpr (alive.cancels.mp cancelled)
  obtain ⟨task, listed, unended⟩ : ∃ task ∈ team.tasks, team.ended? task = none := by
    simpa [isOver, halted] using running
  rcases mem_tasks_iff.mp listed with rfl | ⟨i, worker, rfl, held⟩
  · simp only [ended?] at unended
    cases feeder : team.feeder with
    | walking => exact goesOn_of_walking alive feeder (.inl cancelled)
    | closing marks halt => exact .inl ⟨.feeder, step?_of_closing feeder (.inr (.inl cancelled))⟩
    | done | failed => simp [feeder, Feeder.ended?] at unended
  · simp only [ended?, held, Option.bind_some] at unended
    cases worker with
    | waiting => exact .inl ⟨.worker i, step?_of_waiting held (.inl cancelled)⟩
    | analyzing => exact .inl ⟨.worker i, step?_of_analyzing held⟩
    | done | failed => simp [Worker.ended?] at unended

theorem Marked.closing_zero (marked : Marked team) (allDone : ∀ worker ∈ team.workers, worker.isDone = true) :
    team.feeder.marksLeft team.workers.length = 0 := by
  have marks := marked.marks
  rw [List.countP_eq_length.mpr allDone] at marks
  omega

theorem Marked.all_done (marked : Marked team) (none : team.feeder.marksLeft team.workers.length = 0)
    (empty : team.work = []) : ∀ worker ∈ team.workers, worker.isDone = true := by
  have marks := marked.marks
  rw [none, empty, List.countP_nil, Nat.zero_add, Nat.add_zero] at marks
  exact List.countP_eq_length.mp marks

/-- With an empty queue and a worker that waits for it, the feeder has something to do. -/
theorem goesOn_of_empty {sum : Option Counts} (room : 0 < capacity) (alive : Alive team)
    (marked : Marked team) (unfailed : ∀ halt, team.feeder ≠ .failed halt)
    (waits : .waiting sum ∈ team.workers) (empty : team.work = []) :
    GoesOn pipeline capacity team ∨ team.walk.Stranded := by
  have hasRoom : team.hasRoom capacity = true := by simpa [hasRoom, empty] using room
  cases feeder : team.feeder with
  | walking => exact goesOn_of_walking alive feeder (.inr hasRoom)
  | closing marks halt => exact .inl ⟨.feeder, step?_of_closing feeder (.inr (.inr hasRoom))⟩
  | done =>
    have done := marked.all_done (by rw [feeder]; rfl) empty _ waits
    cases done
  | failed halt => exact absurd feeder (unfailed halt)

/-- When all workers are done, the feeder is done or about to be. -/
theorem goesOn_of_done (marked : Marked team) (unfailed : ∀ halt, team.feeder ≠ .failed halt)
    (undone : team.feeder ≠ .done) (allDone : ∀ worker ∈ team.workers, worker.isDone = true) :
    GoesOn pipeline capacity team := by
  have left := marked.closing_zero allDone
  cases feeder : team.feeder with
  | walking =>
    rw [feeder, Feeder.marksLeft, List.length_eq_zero_iff] at left
    exact absurd left marked.staffed
  | closing marks halt =>
    rw [feeder, Feeder.marksLeft] at left
    exact ⟨.feeder, step?_of_closing feeder (.inl left)⟩
  | done => exact absurd feeder undone
  | failed halt => exact absurd feeder (unfailed halt)

theorem ended_of_done (done : team.feeder = .done) (allDone : ∀ worker ∈ team.workers, worker.isDone = true) :
    ∀ task ∈ team.tasks, ∃ ended, team.ended? task = some ended := by
  intro task listed
  rcases mem_tasks_iff.mp listed with rfl | ⟨i, worker, rfl, held⟩
  · exact ⟨.well none, by simp [ended?, done, Feeder.ended?]⟩
  · cases worker with
    | done sum => exact ⟨.well sum, by simp [ended?, held, Worker.ended?]⟩
    | _ => cases allDone _ (List.mem_of_getElem? held)

/-- A run is over when all its tasks have ended and are collected. -/
theorem isOver_of_collected (ended : ∀ task ∈ team.tasks, ∃ ended, team.ended? task = some ended)
    (collected : ∀ {task ended}, team.ended? task = some ended → task ∈ team.collected) : team.isOver = true := by
  simp only [isOver, Bool.or_eq_true, Bool.and_eq_true, List.all_eq_true, List.contains_iff_mem]
  refine ⟨fun task listed => ?_, .inr fun task listed => ?_⟩
  · obtain ⟨ended, ends⟩ := ended task listed
    simp [ends]
  · obtain ⟨ended, ends⟩ := ended task listed
    exact collected ends

/-- In a run that goes on, a task that has ended is to be collected, or some other one has a step. -/
theorem goesOn_of_unhalted (room : 0 < capacity) (alive : Alive team) (unhalted : team.halt = none)
    (running : team.isOver = false) : GoesOn pipeline capacity team ∨ team.walk.Stranded := by
  have uncancelled : team.cancelled = false :=
    Bool.eq_false_iff.mpr fun cancelled => alive.cancels.mp cancelled unhalted
  have marked := alive.marked uncancelled
  by_cases waits : ∃ task ended, team.ended? task = some ended ∧ task ∉ team.collected
  · obtain ⟨task, ended, ends, fresh⟩ := waits
    exact .inl ⟨.collector task, step?_of_ended unhalted fresh ends⟩
  have collected : ∀ {task ended}, team.ended? task = some ended → task ∈ team.collected := by
    intro task ended ends
    by_contra fresh
    exact waits ⟨task, ended, ends, fresh⟩
  -- what is collected has ended well, so that no task has failed
  have well : ∀ task halt, team.ended? task ≠ some (.badly halt) := by
    intro task halt badly
    obtain ⟨sum, ends⟩ := alive.well unhalted task (collected badly)
    rw [badly] at ends
    cases ends
  have unfailed : ∀ halt, team.feeder ≠ .failed halt := by
    intro halt failed
    exact well .feeder halt (by simp [ended?, failed, Feeder.ended?])
  by_cases allDone : ∀ worker ∈ team.workers, worker.isDone = true
  · refine .inl (goesOn_of_done marked unfailed (fun done => ?_) allDone)
    have atEnd := isOver_of_collected (ended_of_done done allDone) collected
    rw [running] at atEnd
    cases atEnd
  · push Not at allDone
    obtain ⟨worker, member, undone⟩ := allDone
    obtain ⟨i, held⟩ := List.mem_iff_getElem?.mp member
    cases worker with
    | waiting sum =>
      by_cases empty : team.work = []
      · exact goesOn_of_empty room alive marked unfailed member empty
      · exact .inl ⟨.worker i, step?_of_waiting held (.inr empty)⟩
    | analyzing => exact .inl ⟨.worker i, step?_of_analyzing held⟩
    | done => simp [Worker.isDone] at undone
    | failed halt => exact absurd (by simp [ended?, held, Worker.ended?]) (well (.worker i) halt)

/-! ### Every step gets on -/

theorem step?_ne {walk after : SharedWalk} {state later : Team σ} {i : Nat} {logs : List Log.Record}
    (steps : walk.step? pipeline.disk pipeline.walkOptions (receiver pipeline capacity) state i =
      some (after, later, logs)) : after ≠ walk := by
  obtain ⟨old, new, shared, held, turn, rfl⟩ := turn_of_step? steps
  intro same
  obtain ⟨inside, -⟩ := List.getElem?_eq_some_iff.mp held
  have there : (shared.setWalker i new).walkers[i]? = some new := by
    simp [SharedWalk.setWalker, turn.walkers, inside]
  rw [same, held] at there
  obtain rfl : old = new := Option.some.inj there
  cases turn

/-- No step leaves everything as it is. -/
theorem Move.ne (move : Move pipeline capacity team next) : next ≠ team := by
  have setWorker_ne : ∀ {i : Nat} {old new : Worker}, team.workers[i]? = some old → new ≠ old →
      team.workers.set i new ≠ team.workers := by
    intro i old new held changes same
    obtain ⟨inside, -⟩ := List.getElem?_eq_some_iff.mp held
    have there : (team.workers.set i new)[i]? = some new := by simp [inside]
    rw [same, held] at there
    exact changes (Option.some.inj there).symm
  intro same
  cases move with
  | walk steps | note steps | refuse steps | put steps => exact step?_ne steps (congrArg Team.walk same)
  | close closes =>
    have fewer := closings_close? closes
    have walk := congrArg Team.walk same
    simp only at walk
    rw [walk] at fewer
    omega
  | walked walking =>
    have feeder := congrArg Team.feeder same
    rw [walking] at feeder
    cases feeder
  | mark closing =>
    have feeder := congrArg Team.feeder same
    rw [closing] at feeder
    simp at feeder
  | @fed marks halt closing =>
    have feeder := congrArg Team.feeder same
    rw [closing] at feeder
    cases halt <;> cases feeder
  | quit held | takeMark held | takePath held =>
    exact setWorker_ne held (by simp) (congrArg Team.workers same)
  | @analyze i sum path verdict progress held =>
    refine setWorker_ne held ?_ (congrArg Team.workers same)
    rcases verdict with halt | (_ | counts) <;> simp [Worker.after]
  | collect | blame =>
    have collected := congrArg (fun team => team.collected.length) same
    simp at collected

/-! ### Teams whose walk is not interrupted -/

/-- No thread of the walk was interrupted, and there are threads unless there is nothing to walk. -/
structure Hardy (walk : SharedWalk) : Prop where
  unbroken : walk.Unbroken
  manned : walk.isOver = true ∨ walk.walkers ≠ []

theorem Hardy.not_stranded (hardy : Hardy team.walk) : ¬ team.walk.Stranded := by
  intro stranded
  rcases hardy.manned with atEnd | manned
  · have marks := stranded.unclosed
    rw [(marks_of_isOver atEnd).1] at marks
    cases marks
  · exact hardy.unbroken.not_stranded manned stranded

theorem receiver_steady (steady : ∀ entry crash, pipeline.onWalkError entry ≠ some (.interrupt crash)) (entry : Entry)
    (crash : Crash) (after : Team σ) : receiver pipeline capacity team entry ≠ some (.interrupt crash, after) := by
  intro answer
  cases entry with
  | failure path fault => exact steady _ crash (receiver_failure answer).2.1.symm
  | file path => rcases receiver_file answer with ⟨-, is, -⟩ | ⟨-, is, -⟩ <;> cases is

theorem Move.hardy (steady : ∀ entry crash, pipeline.onWalkError entry ≠ some (.interrupt crash))
    (move : Move pipeline capacity team next) (hardy : Hardy team.walk) : Hardy next.walk := by
  cases move with
  | walk steps | note steps | refuse steps | put steps =>
    obtain ⟨old, -, -, held, -, -⟩ := turn_of_step? steps
    refine ⟨unbroken_step? (receiver_steady steady) hardy.unbroken steps, .inr fun none => ?_⟩
    have same := length_walkers_step? steps
    rw [show List.length _ = 0 from congrArg List.length none, eq_comm, List.length_eq_zero_iff] at same
    simp [same] at held
  | close closes =>
    refine ⟨unbroken_close? hardy.unbroken closes, .inr ?_⟩
    rw [(close?_walkers closes).1]
    refine hardy.manned.resolve_left fun atEnd => ?_
    rw [close?_of_isOver atEnd] at closes
    cases closes
  | _ => exact hardy

theorem Reaches.hardy (steady : ∀ entry crash, pipeline.onWalkError entry ≠ some (.interrupt crash))
    (reaches : Reaches pipeline capacity team next) (hardy : Hardy team.walk) : Hardy next.walk := by
  induction reaches with
  | refl => exact hardy
  | tail _ step ih =>
    cases step with
    | timely steps => exact (move_of_step? steps).hardy steady ih
    | late steps =>
      have after := (move_of_step? steps).hardy steady ih
      exact after

theorem hardy_begin {threads : Nat} (manned : 0 < threads) (workers : Nat) (progress : Progress σ)
    (first : Except Crash Start) : Hardy (begin threads workers progress first).walk := by
  rcases first with crash | ⟨path | ⟨job, visited, logs⟩⟩
  · exact ⟨nofun, .inl rfl⟩
  · exact ⟨nofun, .inl rfl⟩
  · refine ⟨unbroken_begin threads job visited, .inr fun none => ?_⟩
    have length := congrArg List.length none
    simp [begin, SharedWalk.begin] at length
    omega

end Team

theorem Team.reaches_of_schedule {σ : Type} {pipeline : Pipeline σ} {capacity : Nat} (actors : List Actor)
    {team next : Team σ} (runs : actors.foldlM (Team.step? pipeline capacity) team = some next) :
    Team.Reaches pipeline capacity team next := by
  induction actors generalizing team with
  | nil =>
    cases runs
    exact .refl
  | cons actor rest ih =>
    rw [List.foldlM_cons] at runs
    obtain ⟨middle, steps, others⟩ := Option.bind_eq_some_iff.mp runs
    exact .head (.timely steps) (ih others)

/-- Three files, on each of which the analyser crashes. -/
def crashingPipeline : Pipeline Unit where
  disk := {
    items := [(["a.py"], .file []), (["b.py"], .file []), (["c.py"], .file [])]
    here := []
    home := "/"
    locked := []
    sealed := []
    tree := by decide }
  settings := {}
  processors := none
  analyze _ _ := (.crashed (.told "ValueError" "broken"), [], ())

/-- The walk and the feeder go on until the queue is full, and both workers crash in the meantime. -/
def crashSchedule : List Actor :=
  List.replicate 8 (.walker 0) ++ [.worker 0, .worker 0, .walker 0, .worker 1, .worker 1, .walker 0, .walker 0,
    .closer, .closer, .walker 0, .feeder]

/-- If the walk is stranded and the workers wait for it, nobody has a step. -/
theorem Team.step?_of_stranded {σ : Type} {pipeline : Pipeline σ} {capacity : Nat} {team : Team σ}
    (sound : team.walk.Sound) (stranded : team.walk.Stranded) (walking : team.feeder = .walking)
    (empty : team.work = []) (uncancelled : team.cancelled = false)
    (waits : ∀ worker ∈ team.workers, worker = .waiting none) (actor : Actor) :
    team.step? pipeline capacity actor = none := by
  cases actor with
  | walker i => simp [step?, walkerStep?, stranded.step?]
  | closer => simp [step?, stranded.close? sound]
  | feeder =>
    have running : team.walk.isOver = false := by simp [SharedWalk.isOver, stranded.unclosed]
    simp [step?, feederStep?, walking, running]
  | worker i =>
    cases held : team.workers[i]? with
    | none => simp [step?, workerStep?, held]
    | some worker =>
      obtain rfl := waits worker (List.mem_of_getElem? held)
      simp [step?, workerStep?, held, uncancelled, empty]
  | collector task =>
    have unended : team.ended? task = none := by
      cases task with
      | feeder => simp [ended?, walking, Feeder.ended?]
      | worker i =>
        refine Option.bind_eq_none_iff.mpr fun worker held => ?_
        rw [waits worker (List.mem_of_getElem? held)]
        rfl
    simp [step?, collectorStep?, unended]

/-- A directory in place of an ignore file, which cannot be read, and another directory. The receiver of walk errors
interrupts. -/
def interruptingPipeline : Pipeline Unit where
  disk := {
    items := [([".gitignore"], .directory), (["d"], .directory)]
    here := []
    home := "/"
    locked := []
    sealed := []
    tree := by decide }
  settings := {}
  processors := none
  analyze path _ := (.failed ⟨.treeless path, path⟩, [], ())
  onWalkError _ := some (.interrupt (.told "SystemExit" "1"))

/-- The only thread of the walk queues the directory and is then interrupted. Nobody has a step any more, though the run
is not over. -/
theorem interrupt_strands_team :
    ∃ team, Team.Reaches interruptingPipeline 1 (.begin 1 2 { state := () } (.ok (.tree topJob [] []))) team ∧
      team.isOver = false ∧ ∀ actor, team.step? interruptingPipeline 1 actor = none := by
  have walk : ((List.replicate 9 (Actor.walker 0)).foldlM (Team.step? interruptingPipeline 1)
      (.begin 1 2 { state := () } (.ok (.tree topJob [] [])))).map
        (fun team => (team.isOver, team.walk.marks, team.walk.queue.length, team.walk.walkers)) =
      some (false, none, 1, [.lost (.told "SystemExit" "1")]) := by
    decide +kernel
  have tasks : ((List.replicate 9 (Actor.walker 0)).foldlM (Team.step? interruptingPipeline 1)
      (.begin 1 2 { state := () } (.ok (.tree topJob [] [])))).map
        (fun team => (team.feeder, team.work, team.cancelled, team.workers)) =
      some (.walking, [], false, List.replicate 2 (.waiting none)) := by
    decide +kernel
  obtain ⟨team, runs, is⟩ := Option.map_eq_some_iff.mp walk
  simp only [runs, Option.map_some, Option.some.injEq, Prod.mk.injEq] at is tasks
  obtain ⟨running, unclosed, queued, lost⟩ := is
  obtain ⟨walking, empty, uncancelled, waits⟩ := tasks
  have reaches := Team.reaches_of_schedule _ runs
  have alive := reaches.alive (Team.alive_begin (by decide) _ _)
  have stranded : team.walk.Stranded :=
    ⟨unclosed, List.ne_nil_of_length_pos (by omega), by simp [lost]⟩
  exact ⟨team, reaches, running, Team.step?_of_stranded alive.sound stranded walking empty uncancelled
    fun worker member => List.eq_of_mem_replicate (waits ▸ member)⟩

end SyntaxTally
