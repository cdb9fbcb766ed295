import SyntaxTally.Pipeline.Run
import SyntaxTally.Proofs.Walk.Schedule

/-!
# What a team does in a step

Each step of a team is one of the moves of `Move`, which says when it can be made and all that it changes.
Actors look at the cancel flag before they act, so a schedule may let one act although the run was cancelled
in the meantime: `Step` has these late steps, too. A task that has ended stays as it is.
-/
namespace SyntaxTally

open Files Walk

/-- What a worker is at after it has analysed a file. -/
def Worker.after (sum : Option Counts) : Except Halt (Option Counts) → Worker
  | .ok (some counts) => .waiting (addTo sum counts)
  | .ok none => .waiting sum
  | .error halt => .failed halt

namespace Team

variable {σ : Type}

/-- The moves of a team. -/
inductive Move (pipeline : Pipeline σ) (capacity : Nat) (team : Team σ) : Team σ → Prop where
  | walk {i : Nat} {walk : SharedWalk} {after : Team σ} {logs : List Log.Record}
    (steps : team.walk.step? pipeline.disk pipeline.walkOptions (receiver pipeline capacity) team i =
      some (walk, after, logs)) (gives : team.walk.gives i = []) :
    Move pipeline capacity team
      { team with walk, progress := { team.progress with logs := team.progress.logs ++ logs } }
  | note {i : Nat} {walk : SharedWalk} {after : Team σ} {logs : List Log.Record} {path : Path}
    {fault : ReadFault} {progress : Progress σ}
    (steps : team.walk.step? pipeline.disk pipeline.walkOptions (receiver pipeline capacity) team i =
      some (walk, after, logs))
    (gives : team.walk.gives i = [.failure path fault])
    (noted : progress = (pipeline.takeError team.progress path fault).2) :
    Move pipeline capacity team { team with
      walk, progress := { progress with logs := progress.logs ++ logs } }
  | refuse {i : Nat} {walk : SharedWalk} {after : Team σ} {logs : List Log.Record} {path : Path}
    (steps : team.walk.step? pipeline.disk pipeline.walkOptions (receiver pipeline capacity) team i =
      some (walk, after, logs))
    (gives : team.walk.gives i = [.file path]) (cancelled : team.cancelled = true) :
    Move pipeline capacity team
      { team with walk, progress := { team.progress with logs := team.progress.logs ++ logs } }
  | put {i : Nat} {walk : SharedWalk} {after : Team σ} {logs : List Log.Record} {path : Path}
    (steps : team.walk.step? pipeline.disk pipeline.walkOptions (receiver pipeline capacity) team i =
      some (walk, after, logs))
    (gives : team.walk.gives i = [.file path]) (goesOn : team.cancelled = false) :
    Move pipeline capacity team { team with
      walk, work := team.work ++ [some path]
      progress := { team.progress with logs := team.progress.logs ++ logs } }
  | close {walk : SharedWalk} (closes : team.walk.close? = some walk) :
    Move pipeline capacity team { team with walk }
  | walked (walking : team.feeder = .walking) (atEnd : team.walk.isOver = true) :
    Move pipeline capacity team { team with feeder := .closing team.workers.length team.walk.ending }
  | mark {marks : Nat} {halt : Option Halt} (closing : team.feeder = .closing (marks + 1) halt) :
    Move pipeline capacity team { team with work := team.work ++ [none], feeder := .closing marks halt }
  | fed {marks : Nat} {halt : Option Halt} (closing : team.feeder = .closing marks halt)
    (last : team.cancelled = false → marks = 0) :
    Move pipeline capacity team { team with feeder := endFeeder halt }
  | quit {i : Nat} {sum : Option Counts} (waits : team.workers[i]? = some (.waiting sum))
    (cancelled : team.cancelled = true) : Move pipeline capacity team (team.setWorker i (.done sum))
  | takeMark {i : Nat} {sum : Option Counts} {rest : List (Option Path)}
    (waits : team.workers[i]? = some (.waiting sum)) (work : team.work = none :: rest) :
    Move pipeline capacity team ({ team with work := rest }.setWorker i (.done sum))
  | takePath {i : Nat} {sum : Option Counts} {path : Path} {rest : List (Option Path)}
    (waits : team.workers[i]? = some (.waiting sum)) (work : team.work = some path :: rest) :
    Move pipeline capacity team ({ team with work := rest }.setWorker i (.analyzing path sum))
  | analyze {i : Nat} {sum : Option Counts} {path : Path} {verdict : Except Halt (Option Counts)}
    {progress : Progress σ} (analyzes : team.workers[i]? = some (.analyzing path sum))
    (taken : pipeline.takeFile team.progress path = (verdict, progress)) :
    Move pipeline capacity team ({ team with progress }.setWorker i (.after sum verdict))
  | collect {task : Task} {sum : Option Counts} (unhalted : team.halt = none)
    (fresh : task ∉ team.collected) (well : team.ended? task = some (.well sum)) :
    Move pipeline capacity team
      { team with collected := team.collected ++ [task], sums := team.sums ++ sum.toList }
  | blame {task : Task} {halt : Halt} (unhalted : team.halt = none)
    (badly : team.ended? task = some (.badly halt)) :
    Move pipeline capacity team
      { team with collected := team.collected ++ [task], halt := some halt, cancelled := true }

variable {pipeline : Pipeline σ} {capacity : Nat} {team next : Team σ}

/-! ### Steps are moves -/

theorem gives_singleton {walk : SharedWalk} {i : Nat} {entry : Entry} {rest : List Entry}
    (gives : walk.gives i = entry :: rest) : rest = [] := by
  unfold SharedWalk.gives Walker.gives at gives
  cases held : walk.walkers[i]? with
  | none => simp [held] at gives
  | some walker =>
    rw [held, Option.map_some, Option.getD_some] at gives
    split at gives
    · exact (List.cons.inj gives).2.symm
    · cases gives

theorem receiver_failure {path : Path} {fault : ReadFault} {reply : Reply} {after : Team σ}
    (answer : receiver pipeline capacity team (.failure path fault) = some (reply, after)) :
    after = { team with progress := (pipeline.takeError team.progress path fault).2 } ∧
      reply.halt? = pipeline.onWalkError (.failure path fault) ∧
      (pipeline.onWalkError (.failure path fault) = none → reply = if team.cancelled then .stop else .goOn) := by
  simp only [receiver, Pipeline.takeError] at answer
  cases halt : pipeline.onWalkError (.failure path fault) with
  | none =>
    simp only [halt] at answer
    cases answer
    refine ⟨rfl, ?_, fun _ => rfl⟩
    split <;> rfl
  | some halt' =>
    simp only [halt] at answer
    cases halt' with
    | crash | interrupt =>
      cases answer
      exact ⟨rfl, rfl, fun none => by cases none⟩

theorem receiver_file {path : Path} {reply : Reply} {after : Team σ}
    (answer : receiver pipeline capacity team (.file path) = some (reply, after)) :
    (team.cancelled = true ∧ reply = .stop ∧ after = team) ∨
      (team.cancelled = false ∧ reply = .goOn ∧
        after = { team with work := team.work ++ [some path] }) := by
  rw [receiver] at answer
  split at answer
  · cases answer
    exact .inl ⟨‹_›, rfl, rfl⟩
  · split at answer
    · cases answer
      exact .inr ⟨Bool.eq_false_iff.mpr ‹_›, rfl, rfl⟩
    · cases answer

theorem move_of_walkerStep? {i : Nat} (walks : team.walkerStep? pipeline capacity i = some next) :
    Move pipeline capacity team next := by
  obtain ⟨⟨walk, after, logs⟩, steps, rfl⟩ := Option.map_eq_some_iff.mp walks
  have delivers := delivers_step? steps
  cases gives : team.walk.gives i with
  | nil =>
    rw [gives] at delivers
    cases delivers
    exact .walk steps gives
  | cons entry rest =>
    obtain rfl := gives_singleton gives
    rw [gives] at delivers
    obtain ⟨reply, answer⟩ := delivers.answer
    cases entry with
    | failure path fault =>
      obtain ⟨rfl, -, -⟩ := receiver_failure answer
      exact .note steps gives rfl
    | file path =>
      rcases receiver_file answer with ⟨cancelled, -, rfl⟩ | ⟨goesOn, -, rfl⟩
      · exact .refuse steps gives cancelled
      · exact .put steps gives goesOn

theorem move_of_feederStep? (feeds : team.feederStep? capacity = some next) :
    Move pipeline capacity team next := by
  unfold feederStep? at feeds
  split at feeds
  · split at feeds
    · cases feeds
      exact .walked ‹_› ‹_›
    · cases feeds
  · cases feeds
    exact .fed ‹_› fun _ => rfl
  · rename_i closing
    split at feeds
    · rename_i cancelled
      cases feeds
      exact .fed closing fun goesOn => by simp [cancelled] at goesOn
    · split at feeds
      · cases feeds
        exact .mark closing
      · cases feeds
  · cases feeds
  · cases feeds

theorem move_of_workerStep? {i : Nat} (works : team.workerStep? pipeline i = some next) :
    Move pipeline capacity team next := by
  unfold workerStep? at works
  split at works
  · rename_i waits
    split at works
    · cases works
      exact .quit waits ‹_›
    · split at works
      · cases works
      · cases works
        exact .takeMark waits ‹_›
      · cases works
        exact .takePath waits ‹_›
  · rename_i analyzes
    split at works <;> cases works
    · exact .analyze analyzes ‹_›
    · exact .analyze analyzes ‹_›
    · exact .analyze analyzes ‹_›
  · cases works
  · cases works
  · cases works

theorem move_of_collectorStep? {task : Task} (collects : team.collectorStep? task = some next) :
    Move pipeline capacity team next := by
  unfold collectorStep? at collects
  split at collects
  · cases collects
  · rename_i still
    simp only [Bool.or_eq_true, not_or, Bool.not_eq_true, Option.isSome_eq_false_iff,
      Option.isNone_iff_eq_none] at still
    obtain ⟨unhalted, fresh⟩ := still
    obtain ⟨ended, ends, rfl⟩ := Option.map_eq_some_iff.mp collects
    cases ended with
    | well sum => exact .collect unhalted (by simpa using fresh) ends
    | badly halt => exact .blame unhalted ends

theorem move_of_step? {actor : Actor} (steps : team.step? pipeline capacity actor = some next) :
    Move pipeline capacity team next := by
  cases actor with
  | walker i => exact move_of_walkerStep? steps
  | closer =>
    obtain ⟨walk, closes, rfl⟩ := Option.map_eq_some_iff.mp steps
    exact .close closes
  | feeder => exact move_of_feederStep? steps
  | worker i => exact move_of_workerStep? steps
  | collector task => exact move_of_collectorStep? steps

/-! ### Schedules -/

/-- A step in a schedule. -/
inductive Step (pipeline : Pipeline σ) (capacity : Nat) (team : Team σ) : Team σ → Prop where
  | timely {actor : Actor} {next : Team σ} (steps : team.step? pipeline capacity actor = some next) :
    Step pipeline capacity team next
  /-- The actor has looked at the cancel flag before it was set. -/
  | late {actor : Actor} {next : Team σ}
    (steps : { team with cancelled := false }.step? pipeline capacity actor = some next) :
    Step pipeline capacity team { next with cancelled := team.cancelled || next.cancelled }

/-- The team can come from one state to another in some schedule. -/
def Reaches (pipeline : Pipeline σ) (capacity : Nat) : Team σ → Team σ → Prop :=
  Relation.ReflTransGen (Step pipeline capacity)

/-- The run in which always the first actor makes a step is one of them. -/
theorem reaches_run (pipeline : Pipeline σ) (capacity fuel : Nat) (team : Team σ) :
    Reaches pipeline capacity team (team.run pipeline capacity fuel) := by
  induction fuel generalizing team with
  | zero => exact .refl
  | succ fuel ih =>
    unfold run
    split
    · rename_i steps
      obtain ⟨actor, -, steps⟩ := List.exists_of_findSome?_eq_some steps
      exact .head (.timely steps) (ih _)
    · exact .refl

/-! ### Runs that go on -/

/-- Nothing has gone wrong so far. -/
structure Smooth (team : Team σ) : Prop where
  uncancelled : team.cancelled = false
  unhalted : team.halt = none
  unfailed : ∀ halt, .failed halt ∉ team.workers

theorem Move.uncancelled (move : Move pipeline capacity team next) (uncancelled : next.cancelled = false) :
    team.cancelled = false := by
  cases move with
  | blame => cases uncancelled
  | _ => exact uncancelled

theorem Move.unhalted (move : Move pipeline capacity team next) (unhalted : next.halt = none) :
    team.halt = none := by
  cases move with
  | blame => cases unhalted
  | _ => exact unhalted

theorem Move.failed {halt : Halt} (move : Move pipeline capacity team next)
    (failed : .failed halt ∈ team.workers) :
    .failed halt ∈ next.workers := by
  cases move with
  | quit held | takeMark held | takePath held | analyze held =>
    exact mem_set_of_ne held failed (by simp)
  | _ => exact failed

theorem Move.smooth (move : Move pipeline capacity team next) (smooth : Smooth next) : Smooth team :=
  ⟨move.uncancelled smooth.uncancelled, move.unhalted smooth.unhalted,
    fun halt failed => smooth.unfailed halt (move.failed failed)⟩

/-! ### Tasks that have ended -/

theorem ended?_setWorker {i : Nat} {old : Worker} {task : Task} {ended : Ended}
    (held : team.workers[i]? = some old) (unended : old.ended? = none) (new : Worker)
    (ends : team.ended? task = some ended) :
    (team.setWorker i new).ended? task = some ended := by
  cases task with
  | feeder => exact ends
  | worker j =>
    by_cases same : j = i
    · subst same
      simp [ended?, held, unended] at ends
    · have other : i ≠ j := fun equal => same equal.symm
      rw [ended?, setWorker, List.getElem?_set_ne other]
      exact ends

theorem ended?_feeder {task : Task} {ended : Ended} (unended : team.feeder.ended? = none) (feeder : Feeder)
    (ends : team.ended? task = some ended) : { team with feeder }.ended? task = some ended := by
  cases task with
  | feeder => simp [ended?, unended] at ends
  | worker j => exact ends

theorem Move.ended? {task : Task} {ended : Ended} (move : Move pipeline capacity team next)
    (ends : team.ended? task = some ended) : next.ended? task = some ended := by
  cases move with
  | walked feeder | fed feeder | mark feeder => exact ended?_feeder (by simp [feeder, Feeder.ended?]) _ ends
  | quit held | takeMark held | takePath held | analyze held => exact ended?_setWorker held rfl _ ends
  | _ => exact ends

/-- Unless the run halts, a move leaves the collected tasks as they are or collects one that ended well. -/
theorem Move.collected (move : Move pipeline capacity team next) (unhalted : next.halt = none) :
    (next.collected = team.collected ∧ next.sums = team.sums) ∨
      ∃ task sum, task ∉ team.collected ∧ team.ended? task = some (.well sum) ∧
        next.collected = team.collected ++ [task] ∧ next.sums = team.sums ++ sum.toList := by
  cases move with
  | @collect task sum _ fresh well => exact .inr ⟨task, sum, fresh, well, rfl, rfl⟩
  | blame => cases unhalted
  | _ => exact .inl ⟨rfl, rfl⟩

/-- As long as the run goes on, the tasks that are collected have ended well. -/
theorem Move.well (move : Move pipeline capacity team next)
    (well : team.halt = none → ∀ task ∈ team.collected, ∃ sum, team.ended? task = some (.well sum)) :
    next.halt = none → ∀ task ∈ next.collected, ∃ sum, next.ended? task = some (.well sum) := by
  intro unhalted task listed
  have before := well (move.unhalted unhalted)
  rcases move.collected unhalted with ⟨same, -⟩ | ⟨other, sum, -, well, collected, -⟩
  · obtain ⟨sum, well⟩ := before task (same ▸ listed)
    exact ⟨sum, move.ended? well⟩
  · rw [collected, List.mem_append, List.mem_singleton] at listed
    rcases listed with earlier | rfl
    · obtain ⟨sum, well⟩ := before task earlier
      exact ⟨sum, move.ended? well⟩
    · exact ⟨sum, move.ended? well⟩

end Team

end SyntaxTally
