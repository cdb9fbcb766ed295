import SyntaxTally.Proofs.Pipeline.Ledger
import SyntaxTally.Proofs.Pipeline.Step

/-!
# Teams under any schedule

An entry that the walk has given is in hand until a worker has analysed the file or the error is noted. As
long as nothing goes wrong, no entry is lost on this way, and the end marks that are left to place, those in
the queue and the workers that are done are together as many as there are workers. If something goes wrong,
it comes from one of the entries. So a team that is through has settled all entries that it was given, in
whatever order its actors made their steps.
-/
namespace SyntaxTally

open Files Walk

namespace Worker

/-- The file that the worker is at. -/
def files : Worker → List Entry
  | analyzing path _ => [.file path]
  | waiting _ | done _ | failed _ => []

def sum : Worker → Option Counts
  | waiting sum | analyzing _ sum | done sum => sum
  | failed _ => none

def isDone : Worker → Bool
  | done _ => true
  | waiting _ | analyzing _ _ | failed _ => false

theorem isDone_after (sum : Option Counts) (verdict : Except Halt (Option Counts)) :
    (after sum verdict).isDone = false := by
  rcases verdict with halt | (_ | counts) <;> rfl

end Worker

/-- The feeder has not met a walk that was broken off. -/
def Feeder.Calm : Feeder → Prop
  | walking | done => True
  | closing _ halt => halt = none
  | failed _ => False

/-- How many end marks the feeder has yet to place. -/
def Feeder.marksLeft (workers : Nat) : Feeder → Nat
  | walking => workers
  | closing marks _ => marks
  | done | failed _ => 0

namespace Team

variable {σ : Type}

/-! ### Entries in hand -/

/-- The files in a queue of files and end marks. -/
def filesIn (work : List (Option Path)) : List Entry := (work.filterMap id).map .file

@[simp] theorem filesIn_append (work more : List (Option Path)) :
    filesIn (work ++ more) = filesIn work ++ filesIn more := by
  simp [filesIn]

@[simp] theorem filesIn_nil : filesIn [] = [] := rfl

@[simp] theorem filesIn_none (rest : List (Option Path)) : filesIn (none :: rest) = filesIn rest := rfl

@[simp] theorem filesIn_some (path : Path) (rest : List (Option Path)) :
    filesIn (some path :: rest) = .file path :: filesIn rest := rfl

/-- The files that are still to be taken by a worker, or to be analysed by it. -/
def inHand (team : Team σ) : List Entry := filesIn team.work ++ team.workers.flatMap Worker.files

/-- The value of the sums of all workers. -/
def held (team : Team σ) : WithZero (String → WithZero Int) :=
  (team.workers.map fun worker => total worker.sum).sum

/-- What becomes of the entries in hand and those that the walk gives: some are dealt with, which is noted,
and some may be lost. -/
structure Account (f : Path → Outcome) (team next : Team σ) (given spent lost : List Entry) : Prop where
  inHand : (given ++ team.inHand).Perm (spent ++ next.inHand ++ lost)
  whole : Smooth next → lost = []
  ledger : Smooth next → ∀ handled, Ledger f handled team.progress →
    Ledger f (handled ++ spent) next.progress
  held : Smooth next → next.held = team.held + tally f spent

variable {pipeline : Pipeline σ} {capacity : Nat} {f : Path → Outcome} {entries given spent lost : List Entry}
  {team next : Team σ}

/-- What the walk gives is noted, put into the queue or refused. -/
theorem inHand_of_walk (team : Team σ) (spent refused : List Entry) (put : List (Option Path))
    (split : given = spent ++ filesIn put ++ refused) (walk : SharedWalk) (progress : Progress σ) :
    (given ++ team.inHand).Perm
      (spent ++ { team with walk, work := team.work ++ put, progress }.inHand ++ refused) := by
  classical
  rw [List.perm_iff_count]
  intro entry
  simp only [split, inHand, filesIn_append, List.count_append]
  omega

/-- A worker takes something from the queue or deals with a file. -/
theorem inHand_of_worker {i : Nat} {old new : Worker} {work : List (Option Path)}
    (held : team.workers[i]? = some old)
    (split : (filesIn team.work ++ old.files).Perm (spent ++ filesIn work ++ new.files ++ lost))
    (progress : Progress σ) :
    team.inHand.Perm (spent ++ ({ team with work, progress }.setWorker i new).inHand ++ lost) := by
  classical
  rw [List.perm_iff_count] at split ⊢
  intro entry
  have here := split entry
  have others := (flatMap_set_perm Worker.files held new).count_eq entry
  simp only [inHand, setWorker, List.count_append] at here others ⊢
  omega

theorem held_setWorker {i : Nat} {old new : Worker} {gain : WithZero (String → WithZero Int)}
    (held : team.workers[i]? = some old) (gains : total new.sum = total old.sum + gain) :
    (team.setWorker i new).held = team.held + gain :=
  sum_map_set (fun worker : Worker => total worker.sum) held gains

theorem Account.keep (same : next.inHand = team.inHand) (held : next.held = team.held)
    (progress : next.progress = team.progress) : Account f team next [] [] [] where
  inHand := by simp [same]
  whole _ := rfl
  ledger _ handled ledger := by simpa [progress] using ledger
  held _ := by simpa [tally] using held

/-- A worker takes something from the queue or goes home. -/
theorem Account.shift {i : Nat} {old new : Worker} {work : List (Option Path)}
    (held : team.workers[i]? = some old)
    (split : (filesIn team.work ++ old.files).Perm (filesIn work ++ new.files)) (sum : new.sum = old.sum) :
    Account f team ({ team with work }.setWorker i new) [] [] [] where
  inHand := inHand_of_worker held (by simpa using split) team.progress
  whole _ := rfl
  ledger _ handled ledger := by rw [List.append_nil]; exact ledger
  held _ := held_setWorker held (by simp [sum, tally])

/-- A worker that has analysed a file has dealt with it, unless it fails. -/
theorem account_of_analysis {i : Nat} {path : Path} {sum : Option Counts}
    {verdict : Except Halt (Option Counts)} {progress : Progress σ} (regular : pipeline.Regular f)
    (analyzes : team.workers[i]? = some (.analyzing path sum))
    (taken : pipeline.takeFile team.progress path = (verdict, progress)) :
    ∃ spent lost, Account f team ({ team with progress }.setWorker i (.after sum verdict)) [] spent lost := by
  have judged : verdict = (f path).verdict := verdict_of_takeFile regular taken
  have noted : progress = (pipeline.takeFile team.progress path).2 := by rw [taken]
  cases verdict with
  | error halt =>
    have split : (filesIn team.work ++ Worker.files (.analyzing path sum)).Perm
        ([] ++ filesIn team.work ++ Worker.files (.failed halt) ++ [.file path]) := by simp [Worker.files]
    -- the file is lost, but the worker has failed, so that nothing more is asked
    have broken : ¬ Smooth ({ team with progress }.setWorker i (.failed halt)) := fun smooth =>
      smooth.unfailed halt (List.mem_set (List.getElem?_eq_some_iff.mp analyzes).1 _)
    exact ⟨[], [.file path], inHand_of_worker analyzes split progress,
      fun smooth => absurd smooth broken, fun smooth => absurd smooth broken,
      fun smooth => absurd smooth broken⟩
  | ok counts =>
    refine ⟨[.file path], [], ?_, fun _ => rfl, fun _ handled ledger => ?_,
      fun _ => held_setWorker analyzes ?_⟩
    · refine inHand_of_worker analyzes ?_ progress
      cases counts <;> simp [Worker.files, Worker.after]
    · rw [noted]
      exact ledger_takeFile regular ledger judged.symm
    · cases counts with
      | none => simp [Worker.after, Worker.sum, tally, Entry.counts?, ← judged]
      | some counts => simp [Worker.after, Worker.sum, tally, Entry.counts?, ← judged, total_addTo]

theorem given_turn (walk : SharedWalk) (i : Nat) : Trace.given [(walk, i)] = walk.gives i := by
  simp [Trace.given]

/-- In a move the walk makes at most one turn, and what it gives is accounted for. -/
theorem Move.account (regular : pipeline.Regular f) (move : Move pipeline capacity team next) :
    ∃ trace spent lost, Course pipeline.disk pipeline.walkOptions team.walk trace next.walk ∧
      Account f team next trace.given spent lost := by
  cases move with
  | walk steps gives =>
    have passed := inHand_of_walk team [] [] [] ((given_turn _ _).trans gives)
    refine ⟨_, [], [], .step .refl steps, by simpa using passed _ _, fun _ => rfl,
      fun _ handled ledger => ?_, fun _ => ?_⟩
    · simpa using ledger_logs ledger _
    · simp [tally, Team.held]
  | @note _ _ _ _ path fault _ steps gives noted =>
    have passed := inHand_of_walk team [.failure path fault] [] [] ((given_turn _ _).trans gives)
    refine ⟨_, [.failure path fault], [], .step .refl steps, by simpa using passed _ _, fun _ => rfl,
      fun _ handled ledger => ?_, fun _ => ?_⟩
    · rw [noted]
      exact ledger_logs (ledger_takeError ledger pipeline path fault) _
    · simp [tally, Team.held, Entry.counts?]
  | @refuse _ _ _ _ path steps gives cancelled =>
    have passed := inHand_of_walk team [] [.file path] [] ((given_turn _ _).trans gives)
    refine ⟨_, [], [.file path], .step .refl steps, by simpa using passed _ _, fun smooth => ?_,
      fun _ handled ledger => ?_, fun _ => ?_⟩
    · exact absurd cancelled (Bool.eq_false_iff.mp smooth.uncancelled)
    · simpa using ledger_logs ledger _
    · simp [tally, Team.held]
  | @put _ _ _ _ path steps gives goesOn =>
    have passed := inHand_of_walk team [] [] [some path] ((given_turn _ _).trans gives)
    refine ⟨_, [], [], .step .refl steps, by simpa using passed _ _, fun _ => rfl,
      fun _ handled ledger => ?_, fun _ => ?_⟩
    · simpa using ledger_logs ledger _
    · simp [tally, Team.held]
  | close closes => exact ⟨[], [], [], .close .refl closes, .keep rfl rfl rfl⟩
  | mark closing => exact ⟨[], [], [], .refl, .keep (by simp [inHand]) rfl rfl⟩
  | quit waits => exact ⟨[], [], [], .refl, .shift waits (List.Perm.refl _) rfl⟩
  | takeMark waits work => exact ⟨[], [], [], .refl, .shift waits (by simp [work, Worker.files]) rfl⟩
  | @takePath _ _ path rest waits work =>
    have moved : (filesIn team.work ++ []).Perm (filesIn rest ++ [Entry.file path]) := by
      simpa [work] using (List.perm_append_singleton (Entry.file path) (filesIn rest)).symm
    exact ⟨[], [], [], .refl, .shift waits moved rfl⟩
  | analyze analyzes taken =>
    obtain ⟨spent, lost, account⟩ := account_of_analysis regular analyzes taken
    exact ⟨[], spent, lost, .refl, account⟩
  | walked | fed | collect | blame => exact ⟨[], [], [], .refl, .keep rfl rfl rfl⟩

/-! ### What goes wrong comes from an entry -/

theorem receiver_quiet {entry : Entry} {reply : Reply} {after : Team σ}
    (quiet : ∀ entry, pipeline.onWalkError entry = none)
    (answer : receiver pipeline capacity team entry = some (reply, after)) : reply.halt? = none := by
  cases entry with
  | failure path fault => rw [(receiver_failure answer).2.1, quiet]
  | file path => rcases receiver_file answer with ⟨-, rfl, -⟩ | ⟨-, rfl, -⟩ <;> rfl

/-- Whatever went wrong comes from an entry that the team was given. -/
structure Honest (f : Path → Outcome) (entries : List Entry) (team : Team σ) : Prop where
  known : ∀ entry ∈ team.inHand, entry ∈ entries
  blamed : ∀ halt, .failed halt ∈ team.workers → Blames f entries halt
  halted : ∀ halt, team.halt = some halt → Blames f entries halt
  calm : team.walk.Calm
  feeds : team.feeder.Calm
  well : team.halt = none → ∀ task ∈ team.collected, ∃ sum, team.ended? task = some (.well sum)

theorem Move.blamed (regular : pipeline.Regular f) (honest : Honest f entries team)
    (move : Move pipeline capacity team next) :
    ∀ halt, .failed halt ∈ next.workers → Blames f entries halt := by
  intro halt failed
  cases move with
  | quit | takeMark | takePath =>
    rcases List.mem_or_eq_of_mem_set failed with already | new
    · exact honest.blamed halt already
    · cases new
  | @analyze i sum path verdict progress analyzes taken =>
    rcases List.mem_or_eq_of_mem_set failed with already | new
    · exact honest.blamed halt already
    · have judged : verdict = (f path).verdict := verdict_of_takeFile regular taken
      have taken : .file path ∈ team.inHand := by
        refine List.mem_append_right _ (List.mem_flatMap.mpr ⟨_, List.mem_of_getElem? analyzes, ?_⟩)
        simp [Worker.files]
      refine ⟨.file path, honest.known _ taken, ?_⟩
      rw [Entry.halt?, ← judged]
      cases verdict with
      | error => cases new; rfl
      | ok found => cases found <;> cases new
  | _ => exact honest.blamed halt failed

theorem Honest.blames_ended {task : Task} {halt : Halt} (honest : Honest f entries team)
    (badly : team.ended? task = some (.badly halt)) : Blames f entries halt := by
  cases task with
  | feeder =>
    have feeds := honest.feeds
    simp only [Team.ended?] at badly
    cases feeder : team.feeder with
    | failed crash => simp [feeder, Feeder.Calm] at feeds
    | _ => simp [feeder, Feeder.ended?] at badly
  | worker i =>
    obtain ⟨worker, held, ends⟩ := Option.bind_eq_some_iff.mp badly
    cases worker with
    | failed cause =>
      obtain rfl : cause = halt := by simpa [Worker.ended?] using ends
      exact honest.blamed cause (List.mem_of_getElem? held)
    | _ => simp [Worker.ended?] at ends

theorem Move.honest (regular : pipeline.Regular f) (move : Move pipeline capacity team next)
    (account : Account f team next given spent lost) (honest : Honest f entries team) :
    Honest f (entries ++ given) next where
  known entry member := by
    have before : entry ∈ given ++ team.inHand := account.inHand.mem_iff.mpr (by simp [member])
    rcases List.mem_append.mp before with new | already
    · exact List.mem_append_right _ new
    · exact List.mem_append_left _ (honest.known entry already)
  blamed halt failed := (move.blamed regular honest halt failed).mono (List.subset_append_left _ _)
  halted halt is := by
    refine Blames.mono ?_ (List.subset_append_left _ _)
    cases move with
    | blame _ badly =>
      obtain rfl := Option.some.inj is
      exact honest.blames_ended badly
    | _ => exact honest.halted halt is
  calm := by
    cases move with
    | walk steps | note steps | refuse steps | put steps =>
      exact calm_step? (fun _ _ _ => receiver_quiet regular.quiet) honest.calm steps
    | close closes => exact calm_close? closes honest.calm
    | _ => exact honest.calm
  feeds := by
    have feeds := honest.feeds
    cases move with
    | walked => simp [Feeder.Calm, honest.calm.ending]
    | mark closing => simpa [closing, Feeder.Calm] using feeds
    | fed closing =>
      obtain rfl : _ = none := by simpa [closing, Feeder.Calm] using feeds
      trivial
    | _ => exact feeds
  well := move.well honest.well

/-! ### The walk and the end marks -/

/-- The walk goes on as it should, and the feeder waits for it. -/
structure Walks (team : Team σ) : Prop where
  sound : team.walk.Sound
  unstopped : team.walk.Unstopped
  fed : team.feeder ≠ .walking → team.walk.isOver = true

theorem receiver_willing {entry : Entry} {reply : Reply} {after : Team σ}
    (quiet : ∀ entry, pipeline.onWalkError entry = none) (goesOn : team.cancelled = false)
    (answer : receiver pipeline capacity team entry = some (reply, after)) : reply = .goOn := by
  cases entry with
  | failure path fault => simp [(receiver_failure answer).2.2 (quiet _), goesOn]
  | file path =>
    rcases receiver_file answer with ⟨cancelled, -, -⟩ | ⟨-, rfl, -⟩
    · simp [goesOn] at cancelled
    · rfl

theorem walking_of_step? {i : Nat} {walk : SharedWalk} {after : Team σ} {logs : List Log.Record}
    (fed : team.feeder ≠ .walking → team.walk.isOver = true)
    (steps : team.walk.step? pipeline.disk pipeline.walkOptions (receiver pipeline capacity) team i =
      some (walk, after, logs)) : team.feeder = .walking := by
  by_contra left
  rw [step?_of_isOver (fed left)] at steps
  cases steps

/-- The feeder goes on only when the walk is over, and then the walk stays so. -/
theorem Move.waits_for_walk (move : Move pipeline capacity team next)
    (fed : team.feeder ≠ .walking → team.walk.isOver = true) :
    next.feeder ≠ .walking → next.walk.isOver = true := by
  intro left
  cases move with
  | walk steps | note steps | refuse steps | put steps => exact absurd (walking_of_step? fed steps) left
  | close closes =>
    rw [close?_of_isOver (fed left)] at closes
    cases closes
  | walked _ atEnd => exact atEnd
  | mark closing | fed closing => exact fed (by simp [closing])
  | _ => exact fed left

theorem Move.walks (quiet : ∀ entry, pipeline.onWalkError entry = none)
    (move : Move pipeline capacity team next) (smooth : Smooth next) (walks : Walks team) : Walks next := by
  have goesOn := move.uncancelled smooth.uncancelled
  have fed := move.waits_for_walk walks.fed
  cases move with
  | walk steps | note steps | refuse steps | put steps =>
    exact ⟨sound_step? walks.sound steps,
      unstopped_step? (fun _ _ _ => receiver_willing quiet goesOn) walks.unstopped steps, fed⟩
  | close closes =>
    exact ⟨sound_close? walks.sound closes, (unstopped_close? closes).mpr walks.unstopped, fed⟩
  | _ => exact ⟨walks.sound, walks.unstopped, fed⟩

/-- There is an end mark for each worker, and the marks come last. -/
structure Marked (team : Team σ) : Prop where
  staffed : team.workers ≠ []
  marks : team.work.countP Option.isNone + team.workers.countP Worker.isDone +
    team.feeder.marksLeft team.workers.length = team.workers.length
  order : team.work.Pairwise fun first second => first = none → second = none
  last : ∀ worker ∈ team.workers, worker.isDone = true → ∀ item ∈ team.work, item = none

theorem Marked.none_yet (marked : Marked team) (walking : team.feeder = .walking) :
    none ∉ team.work ∧ ∀ worker ∈ team.workers, worker.isDone = false := by
  have marks := marked.marks
  rw [walking, Feeder.marksLeft] at marks
  have noMark : team.work.countP Option.isNone = 0 := by omega
  have noneDone : team.workers.countP Worker.isDone = 0 := by omega
  refine ⟨fun mark => ?_, fun worker member => ?_⟩
  · exact absurd rfl (List.countP_eq_zero.mp noMark none mark)
  · exact Bool.eq_false_iff.mpr (List.countP_eq_zero.mp noneDone worker member)

theorem Marked.put (marked : Marked team) (walking : team.feeder = .walking) (path : Path) :
    Marked { team with work := team.work ++ [some path] } := by
  obtain ⟨noMark, noneDone⟩ := marked.none_yet walking
  refine ⟨marked.staffed, by simpa using marked.marks, ?_, fun worker member done => ?_⟩
  · refine List.pairwise_append.mpr
      ⟨marked.order, List.pairwise_singleton _ _, fun first member _ _ mark => ?_⟩
    exact absurd (mark ▸ member) noMark
  · simp [noneDone worker member] at done

theorem Marked.mark {marks : Nat} {halt : Option Halt} (marked : Marked team)
    (closing : team.feeder = .closing (marks + 1) halt) :
    Marked { team with work := team.work ++ [none], feeder := .closing marks halt } := by
  refine ⟨marked.staffed, ?_, ?_, fun worker member done item listed => ?_⟩
  · have marks := marked.marks
    rw [closing] at marks
    simp only [Feeder.marksLeft, List.countP_append, List.countP_singleton, Option.isNone_none,
      if_true] at marks ⊢
    omega
  · refine List.pairwise_append.mpr ⟨marked.order, List.pairwise_singleton _ _, fun _ _ second last _ => ?_⟩
    exact List.mem_singleton.mp last
  · rcases List.mem_append.mp listed with earlier | last
    · exact marked.last worker member done item earlier
    · exact List.mem_singleton.mp last

theorem Marked.takeMark {i : Nat} {sum : Option Counts} {rest : List (Option Path)} (marked : Marked team)
    (waits : team.workers[i]? = some (.waiting sum)) (work : team.work = none :: rest) :
    Marked ({ team with work := rest }.setWorker i (.done sum)) := by
  have order := marked.order
  rw [work, List.pairwise_cons] at order
  refine ⟨by simpa [setWorker] using marked.staffed, ?_, order.2,
    fun _ _ _ item listed => order.1 item listed rfl⟩
  have marks := marked.marks
  have done := countP_set_add Worker.isDone waits (.done sum)
  simp only [work, List.countP_cons, Option.isNone_none, if_true] at marks
  simp only [Worker.isDone, if_true, Bool.false_eq_true, if_false] at done
  simp only [setWorker, List.length_set]
  omega

/-- A worker that does not go home leaves the marks as they are. -/
theorem Marked.setWorker {i : Nat} {old new : Worker} (marked : Marked team)
    (held : team.workers[i]? = some old) (before : old.isDone = false) (after : new.isDone = false) :
    Marked (team.setWorker i new) := by
  have done := countP_set_add Worker.isDone held new
  rw [before, after] at done
  refine ⟨by simpa [Team.setWorker] using marked.staffed, ?_, marked.order, fun worker member isDone => ?_⟩
  · have marks := marked.marks
    simp only [Team.setWorker, List.length_set]
    omega
  · rcases List.mem_or_eq_of_mem_set member with already | rfl
    · exact marked.last worker already isDone
    · simp [after] at isDone

theorem Marked.takePath {path : Path} {rest : List (Option Path)} (marked : Marked team)
    (work : team.work = some path :: rest) : Marked { team with work := rest } := by
  have order := marked.order
  rw [work, List.pairwise_cons] at order
  refine ⟨marked.staffed, by simpa [work] using marked.marks, order.2, fun worker member done => ?_⟩
  have mark := marked.last worker member done (some path) (by simp [work])
  cases mark

theorem Move.marked (move : Move pipeline capacity team next) (uncancelled : next.cancelled = false)
    (fed : team.feeder ≠ .walking → team.walk.isOver = true) (marked : Marked team) : Marked next := by
  have goesOn := move.uncancelled uncancelled
  cases move with
  | @put _ _ _ _ path steps =>
    have put := marked.put (walking_of_step? fed steps) path
    exact ⟨put.staffed, put.marks, put.order, put.last⟩
  | walked walking =>
    refine ⟨marked.staffed, ?_, marked.order, marked.last⟩
    simpa [walking, Feeder.marksLeft] using marked.marks
  | mark closing => exact marked.mark closing
  | @fed _ crash closing last =>
    refine ⟨marked.staffed, ?_, marked.order, marked.last⟩
    have marks := marked.marks
    rw [closing, last goesOn] at marks
    cases crash <;> exact marks
  | quit _ cancelled => simp [goesOn] at cancelled
  | takeMark waits work => exact marked.takeMark waits work
  | takePath waits work => exact (marked.takePath work).setWorker waits rfl rfl
  | @analyze _ sum _ verdict _ analyzes =>
    have shifted := marked.setWorker analyzes rfl (Worker.isDone_after sum verdict)
    exact ⟨shifted.staffed, shifted.marks, shifted.order, shifted.last⟩
  | _ => exact ⟨marked.staffed, marked.marks, marked.order, marked.last⟩

/-! ### Sums -/

/-- What a task that has ended well adds to the sums. -/
def sumOf (team : Team σ) (task : Task) : Option Counts :=
  match team.ended? task with
  | some (.well sum) => sum
  | _ => none

/-- Each collected task is collected once, with its sum. -/
structure Gathered (team : Team σ) : Prop where
  once : team.collected.Nodup
  sums : team.sums = team.collected.filterMap team.sumOf

theorem Move.gathered (move : Move pipeline capacity team next) (honest : Honest f entries team)
    (smooth : Smooth next) (gathered : Gathered team) : Gathered next := by
  -- a task that was collected has ended, so that its sum does not change any more
  have stays : team.collected.filterMap next.sumOf = team.collected.filterMap team.sumOf := by
    refine List.filterMap_congr fun task collected => ?_
    obtain ⟨sum, well⟩ := honest.well (move.unhalted smooth.unhalted) task collected
    rw [sumOf, sumOf, move.ended? well, well]
  rcases move.collected smooth.unhalted with ⟨collected, sums⟩ | ⟨task, sum, fresh, well, collected, sums⟩
  · exact ⟨collected ▸ gathered.once, by rw [sums, collected, stays, gathered.sums]⟩
  · refine ⟨by rw [collected, ← List.concat_eq_append]; exact gathered.once.concat fresh, ?_⟩
    have added : next.sumOf task = sum := by rw [sumOf, move.ended? well]
    rw [sums, collected, List.filterMap_append, stays, gathered.sums]
    cases sum <;> simp [added]

/-- All entries are dealt with or in hand, and what is noted and added up comes from those dealt with. -/
def Balanced (f : Path → Outcome) (entries : List Entry) (team : Team σ) : Prop :=
  ∃ handled, (handled ++ team.inHand).Perm entries ∧ Ledger f handled team.progress ∧ team.held = tally f handled

theorem Account.balanced (account : Account f team next given spent lost) (smooth : Smooth next)
    (balanced : Balanced f entries team) : Balanced f (entries ++ given) next := by
  classical
  obtain ⟨handled, all, ledger, held⟩ := balanced
  refine ⟨handled ++ spent, List.perm_iff_count.mpr fun entry => ?_, account.ledger smooth handled ledger, ?_⟩
  · have before := all.count_eq entry
    have here := account.inHand.count_eq entry
    rw [account.whole smooth] at here
    simp only [List.count_append, List.append_nil] at before here ⊢
    omega
  · rw [account.held smooth, held, tally_append]

end Team

end SyntaxTally
