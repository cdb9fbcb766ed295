import SyntaxTally.Proofs.Pipeline.Team

/-!
# Teams settle all entries

`Kept` gathers what holds in every schedule of a team and the entries that it was given. It holds at the start
and is kept by every step, so that it holds of each team that is over. `settled_outcome` reads off what such
a team gives.
-/
namespace SyntaxTally

open Files Walk

namespace Team

variable {σ : Type} {pipeline : Pipeline σ} {capacity : Nat} {f : Path → Outcome} {entries : List Entry}
  {team next : Team σ}

/-! ### What all schedules keep -/

/-- What holds of a team while nothing has gone wrong. -/
structure InOrder (f : Path → Outcome) (entries : List Entry) (team : Team σ) : Prop where
  walks : Walks team
  marked : Marked team
  gathered : Gathered team
  balanced : Balanced f entries team

/-- What holds of a team in every schedule. -/
structure Kept (f : Path → Outcome) (entries : List Entry) (team : Team σ) : Prop where
  honest : Honest f entries team
  halts : team.cancelled = true → team.halt ≠ none
  inOrder : Smooth team → InOrder f entries team

theorem Honest.flag (honest : Honest f entries team) (cancelled : Bool) :
    Honest f entries { team with cancelled } :=
  ⟨honest.known, honest.blamed, honest.halted, honest.calm, honest.feeds, honest.well⟩

theorem Move.halts (move : Move pipeline capacity team next)
    (halts : team.cancelled = true → team.halt ≠ none) :
    next.cancelled = true → next.halt ≠ none := by
  cases move with
  | blame => simp
  | _ => exact halts

theorem Move.kept (regular : pipeline.Regular f) (move : Move pipeline capacity team next)
    (kept : Kept f entries team) :
    ∃ trace, Course pipeline.disk pipeline.walkOptions team.walk trace next.walk ∧
      Kept f (entries ++ trace.given) next := by
  obtain ⟨trace, spent, lost, course, account⟩ := move.account regular
  refine ⟨trace, course, move.honest regular account kept.honest, move.halts kept.halts, fun smooth => ?_⟩
  obtain ⟨walks, marked, gathered, balanced⟩ := kept.inOrder (move.smooth smooth)
  exact ⟨move.walks regular.quiet smooth walks, move.marked smooth.uncancelled walks.fed marked,
    move.gathered kept.honest smooth gathered, account.balanced smooth balanced⟩

/-- A late step is made as if the flag were not set. -/
theorem Kept.unflag (kept : Kept f entries team) : Kept f entries { team with cancelled := false } := by
  refine ⟨kept.honest.flag false, by simp, fun smooth => ?_⟩
  have uncancelled : team.cancelled = false :=
    Bool.eq_false_iff.mpr fun cancelled => kept.halts cancelled smooth.unhalted
  have same : { team with cancelled := false } = team := by rw [← uncancelled]
  rw [same] at smooth ⊢
  exact kept.inOrder smooth

theorem Kept.reflag {flag : Bool} (kept : Kept f entries team) (halts : flag = true → team.halt ≠ none) :
    Kept f entries { team with cancelled := flag || team.cancelled } := by
  cases flag with
  | false => exact kept
  | true =>
    exact ⟨kept.honest.flag _, fun _ => halts rfl, fun smooth => absurd smooth.unhalted (halts rfl)⟩

theorem Step.kept (regular : pipeline.Regular f) (step : Step pipeline capacity team next)
    (kept : Kept f entries team) :
    ∃ trace, Course pipeline.disk pipeline.walkOptions team.walk trace next.walk ∧
      Kept f (entries ++ trace.given) next := by
  cases step with
  | timely steps => exact (move_of_step? steps).kept regular kept
  | late steps =>
    have move := move_of_step? steps
    obtain ⟨trace, course, after⟩ := move.kept regular kept.unflag
    exact ⟨trace, course, after.reflag fun cancelled unhalted => kept.halts cancelled (move.unhalted unhalted)⟩

theorem Reaches.kept (regular : pipeline.Regular f) (reaches : Reaches pipeline capacity team next)
    (kept : Kept f entries team) :
    ∃ trace, Course pipeline.disk pipeline.walkOptions team.walk trace next.walk ∧
      Kept f (entries ++ trace.given) next := by
  induction reaches with
  | refl => exact ⟨[], .refl, by simpa [Trace.given] using kept⟩
  | tail _ step ih =>
    obtain ⟨trace, course, before⟩ := ih
    obtain ⟨more, others, after⟩ := step.kept regular before
    refine ⟨trace ++ more, course.trans others, ?_⟩
    simpa [Trace.given, List.append_assoc] using after

/-! ### The beginning -/

/-- A team that has not made a step. -/
def fresh (walk : SharedWalk) (work : List (Option Path)) (workers : Nat) (progress : Progress σ) :
    Team σ :=
  { walk, work, workers := List.replicate workers (.waiting none), progress }

variable {walk : SharedWalk} {work : List (Option Path)} {workers : Nat} {progress : Progress σ}

theorem inHand_fresh (walk : SharedWalk) (work : List (Option Path)) (workers : Nat) (progress : Progress σ) :
    (fresh walk work workers progress).inHand = filesIn work := by
  have idle : (List.replicate workers (Worker.waiting none)).flatMap Worker.files = [] := by
    simp [List.flatMap_eq_nil_iff, Worker.files]
  simp [inHand, fresh, idle]

theorem honest_fresh (calm : walk.Calm) : Honest f (filesIn work) (fresh walk work workers progress) where
  known entry member := inHand_fresh walk work workers progress ▸ member
  blamed halt failed := by simp [fresh] at failed
  halted halt is := by cases is
  calm := calm
  feeds := trivial
  well _ task collected := by cases collected

theorem marked_fresh (staffed : 0 < workers) (noMark : ∀ item ∈ work, item ≠ none) :
    Marked (fresh walk work workers progress) where
  staffed := by
    intro none
    have length := congrArg List.length none
    simp [fresh] at length
    omega
  marks := by
    have marks : work.countP Option.isNone = 0 := List.countP_eq_zero.mpr (by simpa using noMark)
    simp [fresh, marks, List.countP_replicate, Worker.isDone, Feeder.marksLeft]
  order := List.pairwise_of_forall_mem_list fun first member _ _ mark => absurd mark (noMark first member)
  last worker member done := by
    rw [List.eq_of_mem_replicate member] at done
    cases done

theorem balanced_fresh (ledger : Ledger f [] progress) :
    Balanced f (filesIn work) (fresh walk work workers progress) :=
  ⟨[], by rw [inHand_fresh]; rfl, ledger, by simp [fresh, held, tally, Worker.sum]⟩

theorem kept_fresh (staffed : 0 < workers) (noMark : ∀ item ∈ work, item ≠ none) (sound : walk.Sound)
    (unstopped : walk.Unstopped) (calm : walk.Calm) (ledger : Ledger f [] progress) :
    Kept f (filesIn work) (fresh walk work workers progress) where
  honest := honest_fresh calm
  halts := by simp [fresh]
  inOrder _ :=
    ⟨⟨sound, unstopped, fun left => absurd rfl left⟩, marked_fresh staffed noMark, ⟨List.nodup_nil, rfl⟩,
      balanced_fresh ledger⟩

theorem sound_noWalk : noWalk.Sound := ⟨rfl, nofun, fun _ => ⟨nofun, nofun⟩⟩

/-- A team at the start of a walk is in order. -/
theorem kept_begin (threads : Nat) (staffed : 0 < workers) (ledger : Ledger f [] progress) (first : Start) :
    Kept f (filesIn (begin threads workers progress (.ok first)).work)
      (.begin threads workers progress (.ok first)) := by
  cases first with
  | single path => exact kept_fresh staffed (by simp [begin]) sound_noWalk ⟨rfl, nofun⟩ ⟨rfl, nofun⟩ ledger
  | tree job visited logs =>
    exact kept_fresh staffed (by simp [begin]) (sound_begin threads job visited)
      (unstopped_begin threads job visited) ⟨rfl, by simp [SharedWalk.begin, Walker.crash?]⟩ (ledger_logs ledger _)

/-! ### The end -/

theorem mem_tasks_worker {i : Nat} {worker : Worker} (held : team.workers[i]? = some worker) :
    .worker i ∈ team.tasks := by
  obtain ⟨inside, -⟩ := List.getElem?_eq_some_iff.mp held
  simp [tasks, inside]

theorem nodup_tasks (team : Team σ) : team.tasks.Nodup := by
  refine List.nodup_cons.mpr ⟨by simp, List.nodup_range.map fun left right same => ?_⟩
  simpa using same

/-- All tasks of the team have ended well. -/
structure Through (team : Team σ) : Prop where
  fed : team.feeder = .done
  done : ∀ worker ∈ team.workers, ∃ sum, worker = .done sum
  collected : ∀ task ∈ team.tasks, task ∈ team.collected

theorem through_of_isOver (honest : Honest f entries team) (unhalted : team.halt = none)
    (atEnd : team.isOver = true) : Through team := by
  have collected : ∀ task ∈ team.tasks, task ∈ team.collected := by
    simpa [isOver, unhalted] using (Bool.and_eq_true_iff.mp atEnd).2
  have well := fun task listed => honest.well unhalted task (collected task listed)
  refine ⟨?_, fun worker member => ?_, collected⟩
  · obtain ⟨sum, ends⟩ := well .feeder (by simp [tasks])
    simp only [ended?] at ends
    cases feeder : team.feeder with
    | done => rfl
    | _ => simp [feeder, Feeder.ended?] at ends
  · obtain ⟨i, inside, same⟩ := List.mem_iff_getElem.mp member
    have held : team.workers[i]? = some worker := List.getElem?_eq_some_iff.mpr ⟨inside, same⟩
    obtain ⟨sum, ends⟩ := well (.worker i) (mem_tasks_worker held)
    simp only [ended?, held, Option.bind_some] at ends
    cases worker with
    | done sum => exact ⟨sum, rfl⟩
    | _ => simp [Worker.ended?] at ends

theorem Through.smooth (through : Through team) (halts : team.cancelled = true → team.halt ≠ none)
    (unhalted : team.halt = none) : Smooth team where
  uncancelled := Bool.eq_false_iff.mpr fun cancelled => halts cancelled unhalted
  unhalted := unhalted
  unfailed halt failed := by
    obtain ⟨sum, is⟩ := through.done _ failed
    cases is

/-- When all workers have gone home, nothing is in hand. -/
theorem Through.inHand (through : Through team) (marked : Marked team) : team.inHand = [] := by
  have allDone : ∀ worker ∈ team.workers, worker.isDone = true := by
    intro worker member
    obtain ⟨sum, rfl⟩ := through.done worker member
    rfl
  -- all workers are done, so all marks were taken, and files never come behind a mark
  have taken : team.work = [] := by
    have marks := marked.marks
    rw [through.fed, Feeder.marksLeft, List.countP_eq_length.mpr allDone] at marks
    have noMark : team.work.countP Option.isNone = 0 := by omega
    obtain ⟨worker, rest, some⟩ := List.exists_cons_of_ne_nil marked.staffed
    have onlyMarks := marked.last worker (by simp [some]) (allDone worker (by simp [some]))
    refine List.eq_nil_iff_forall_not_mem.mpr fun item listed => ?_
    obtain rfl := onlyMarks item listed
    exact List.countP_eq_zero.mp noMark none listed rfl
  have rests : team.workers.flatMap Worker.files = [] := by
    refine List.flatMap_eq_nil_iff.mpr fun worker member => ?_
    obtain ⟨sum, rfl⟩ := through.done worker member
    rfl
  rw [Team.inHand, taken, rests]
  rfl

theorem sum_filterMap (give : Task → Option Counts) (tasks : List Task) :
    ((tasks.filterMap give).map fun counts => total (some counts)).sum =
      (tasks.map fun task => total (give task)).sum := by
  induction tasks with
  | nil => rfl
  | cons task rest ih => cases given : give task <;> simp_all

/-- The sums that were collected are those of all workers. -/
theorem Through.total_sums (through : Through team) (honest : Honest f entries team)
    (unhalted : team.halt = none) (gathered : Gathered team) :
    total (Counts.reduce team.sums) = team.held := by
  have all : team.collected.Perm team.tasks := by
    refine (List.perm_ext_iff_of_nodup gathered.once (nodup_tasks team)).mpr fun task =>
      ⟨fun listed => ?_, through.collected task⟩
    obtain ⟨sum, ends⟩ := honest.well unhalted task listed
    cases task with
    | feeder => simp [tasks]
    | worker i =>
      obtain ⟨worker, held, -⟩ := Option.bind_eq_some_iff.mp ends
      exact mem_tasks_worker held
  have ofWorkers : (List.range team.workers.length).map (fun i => total (team.sumOf (.worker i))) =
      team.workers.map fun worker => total worker.sum := by
    refine List.ext_getElem (by simp) fun i _ inside => ?_
    have here : i < team.workers.length := by simpa using inside
    obtain ⟨sum, done⟩ := through.done team.workers[i] (List.getElem_mem here)
    simp [sumOf, ended?, List.getElem?_eq_getElem here, done, Worker.ended?, Worker.sum]
  rw [total_reduce, gathered.sums, sum_filterMap, (all.map _).sum_eq, held, ← ofWorkers]
  simp [tasks, sumOf, ended?, through.fed, Feeder.ended?, Function.comp_def]

/-- A team that is over has settled all entries that it was given, and unless the run was broken off its
walk is through. -/
theorem settled_outcome (kept : Kept f entries team) (atEnd : team.isOver = true) :
    Settled f entries team.outcome ∧ (Unbroken team.outcome → team.walk.Unstopped ∧
      (∀ item ∈ team.walk.queue, item = none) ∧ ∀ walker ∈ team.walk.walkers, walker.isBusy = false) := by
  cases halted : team.halt with
  | some halt =>
    rw [outcome, halted]
    exact ⟨.halted "Worker task failed" team.progress (kept.honest.halted halt halted),
      fun unbroken => absurd rfl (unbroken halt "Worker task failed")⟩
  | none =>
    have through := through_of_isOver kept.honest halted atEnd
    obtain ⟨walks, marked, gathered, balanced⟩ := kept.inOrder (through.smooth kept.halts halted)
    obtain ⟨handled, all, ledger, held⟩ := balanced
    rw [through.inHand marked, List.append_nil] at all
    rw [outcome, halted]
    constructor
    · refine .finished all ledger ?_
      rw [through.total_sums kept.honest halted gathered, held, tally_perm f all]
    · exact fun _ => ⟨walks.unstopped, idle_of_isOver walks.sound (walks.fed (by simp [through.fed]))⟩

/-! ### Walks that cannot begin -/

/-- What holds of a team whose walk could not begin: there is nothing to do but to go home. -/
structure Barren (crash : Crash) (progress : Progress σ) (team : Team σ) : Prop where
  walk : team.walk = noWalk
  feeder : (∃ marks, team.feeder = .closing marks (some (.crash crash))) ∨ team.feeder = .failed (.crash crash)
  work : ∀ item ∈ team.work, item = none
  workers : ∀ worker ∈ team.workers, worker = .waiting none ∨ worker = .done none
  halts : ∀ halt, team.halt = some halt → halt = .crash crash
  well : team.halt = none → ∀ task ∈ team.collected, ∃ sum, team.ended? task = some (.well sum)
  progress : team.progress = progress

variable {crash : Crash}

theorem Barren.blames_ended {task : Task} {halt : Halt} (barren : Barren crash progress team)
    (badly : team.ended? task = some (.badly halt)) : halt = .crash crash := by
  cases task with
  | feeder =>
    rcases barren.feeder with ⟨marks, closing⟩ | failed
    · simp [ended?, closing, Feeder.ended?] at badly
    · simpa [ended?, failed, Feeder.ended?, eq_comm] using badly
  | worker i =>
    obtain ⟨worker, held, ends⟩ := Option.bind_eq_some_iff.mp badly
    rcases barren.workers worker (List.mem_of_getElem? held) with rfl | rfl <;> cases ends

theorem Barren.sum_eq_none {i : Nat} {sum : Option Counts} (barren : Barren crash progress team)
    (waits : team.workers[i]? = some (.waiting sum)) : sum = none := by
  rcases barren.workers _ (List.mem_of_getElem? waits) with is | is
  · exact Worker.waiting.inj is
  · cases is

theorem Barren.step?_eq_none (barren : Barren crash progress team) (i : Nat) :
    team.walk.step? pipeline.disk pipeline.walkOptions (receiver pipeline capacity) team i = none := by
  rw [barren.walk]
  exact step?_of_isOver rfl

theorem Move.barren (move : Move pipeline capacity team next) (barren : Barren crash progress team) :
    Barren crash progress next := by
  have well := move.well barren.well
  cases move with
  | walk steps | note steps | refuse steps | put steps =>
    rw [barren.step?_eq_none] at steps
    cases steps
  | close closes =>
    rw [barren.walk, close?_of_isOver rfl] at closes
    cases closes
  | walked walking =>
    have feeder := barren.feeder
    simp [walking] at feeder
  | mark closing =>
    have still : ∀ item ∈ team.work ++ [none], item = none := by simpa [or_imp, forall_and] using barren.work
    have feeder := barren.feeder
    rw [closing] at feeder
    obtain rfl : _ = some (Halt.crash crash) := by simpa using feeder
    exact ⟨barren.walk, .inl ⟨_, rfl⟩, still, barren.workers, barren.halts, well, barren.progress⟩
  | fed closing =>
    have feeder := barren.feeder
    rw [closing] at feeder
    obtain rfl : _ = some (Halt.crash crash) := by simpa using feeder
    exact ⟨barren.walk, .inr rfl, barren.work, barren.workers, barren.halts, well, barren.progress⟩
  | quit waits =>
    obtain rfl := barren.sum_eq_none waits
    exact ⟨barren.walk, barren.feeder, barren.work, forall_mem_set barren.workers (.inr rfl), barren.halts, well,
      barren.progress⟩
  | takeMark waits work =>
    obtain rfl := barren.sum_eq_none waits
    have still := barren.work
    rw [work] at still
    exact ⟨barren.walk, barren.feeder, fun item listed => still item (List.mem_cons_of_mem _ listed),
      forall_mem_set barren.workers (.inr rfl), barren.halts, well, barren.progress⟩
  | @takePath _ _ path rest _ work =>
    have mark := barren.work (some path) (by simp [work])
    cases mark
  | analyze analyzes =>
    rcases barren.workers _ (List.mem_of_getElem? analyzes) with is | is <;> cases is
  | collect => exact ⟨barren.walk, barren.feeder, barren.work, barren.workers, barren.halts, well, barren.progress⟩
  | blame _ badly =>
    refine ⟨barren.walk, barren.feeder, barren.work, barren.workers, fun halt is => ?_, well, barren.progress⟩
    obtain rfl := Option.some.inj is
    exact barren.blames_ended badly

theorem Barren.flag (barren : Barren crash progress team) (cancelled : Bool) :
    Barren crash progress { team with cancelled } :=
  ⟨barren.walk, barren.feeder, barren.work, barren.workers, barren.halts, barren.well, barren.progress⟩

theorem Reaches.barren (reaches : Reaches pipeline capacity team next) (barren : Barren crash progress team) :
    Barren crash progress next := by
  induction reaches with
  | refl => exact barren
  | tail _ step ih =>
    cases step with
    | timely steps => exact (move_of_step? steps).barren ih
    | late steps => exact ((move_of_step? steps).barren (ih.flag false)).flag _

theorem barren_begin (threads workers : Nat) (progress : Progress σ) (crash : Crash) :
    Barren crash progress (.begin threads workers progress (.error crash)) where
  walk := rfl
  feeder := .inl ⟨workers, rfl⟩
  work := nofun
  workers _ member := .inl (List.eq_of_mem_replicate member)
  halts := nofun
  well _ := nofun
  progress := rfl

/-- The feeder has failed, so that the run is not over before that is collected. -/
theorem Barren.outcome (barren : Barren crash progress team) (atEnd : team.isOver = true) :
    team.outcome = (.error (.worker "Worker task failed" crash), progress) := by
  cases halted : team.halt with
  | some halt =>
    rw [Team.outcome, halted, barren.halts halt halted, barren.progress]
    rfl
  | none =>
    have collected : ∀ task ∈ team.tasks, task ∈ team.collected := by
      simpa [isOver, halted] using (Bool.and_eq_true_iff.mp atEnd).2
    obtain ⟨sum, well⟩ := barren.well halted .feeder (collected .feeder (by simp [tasks]))
    rcases barren.feeder with ⟨marks, closing⟩ | failed
    · simp [ended?, closing, Feeder.ended?] at well
    · simp [ended?, failed, Feeder.ended?] at well

end Team

end SyntaxTally
