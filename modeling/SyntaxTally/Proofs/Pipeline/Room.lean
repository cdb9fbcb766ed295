import SyntaxTally.Proofs.Pipeline.Step

/-!
# Room for a team

Whatever is set, there is a worker, a thread that walks and room in the queue. The threads and workers of a team are
hired at its start and stay in number, and its queue never holds more than it has room for. Each actor looks for room
itself, so this is said of the steps and not of the moves.
-/
namespace SyntaxTally

/-! ### Numbers that are set -/

namespace Settings

theorem positive?_getD_pos {given : Option Int} {fallback : Nat} (pos : 0 < fallback) :
    0 < (positive? given).getD fallback := by
  unfold positive?
  split
  · split
    · rw [Option.getD_some]
      omega
    · exact pos
  · exact pos

variable (settings : Settings) (processors : Option Nat)

theorem effectiveWorkers_pos : 0 < settings.effectiveWorkers processors :=
  positive?_getD_pos (by omega)

theorem effectiveQueueSize_pos : 0 < settings.effectiveQueueSize processors :=
  positive?_getD_pos (settings.effectiveWorkers_pos processors)

theorem effectiveWalkThreads_pos : 0 < settings.effectiveWalkThreads processors :=
  positive?_getD_pos (by omega)

end Settings

/-! ### Steps -/

namespace Team

open Files Walk

variable {σ : Type} {pipeline : Pipeline σ} {capacity threads workers : Nat} {team next : Team σ}

/-- A team of so many walking threads and workers, with no more in its queue than there is room for. -/
structure Within (capacity threads workers : Nat) (team : Team σ) : Prop where
  walkers : team.walk.walkers.length = threads
  workers : team.workers.length = workers
  work : team.work.length ≤ capacity

theorem receiver_within {entry : Entry} {reply : Reply} {after : Team σ} (within : Within capacity threads workers team)
    (answer : receiver pipeline capacity team entry = some (reply, after)) :
    after.workers.length = workers ∧ after.work.length ≤ capacity := by
  cases entry with
  | failure path fault =>
    obtain ⟨rfl, -⟩ := receiver_failure answer
    exact ⟨within.workers, within.work⟩
  | file path =>
    rw [receiver] at answer
    split at answer
    · cases answer
      exact ⟨within.workers, within.work⟩
    · split at answer
      · rename_i room
        cases answer
        have fewer : team.work.length < capacity := by simpa [hasRoom] using room
        refine ⟨within.workers, ?_⟩
        rw [List.length_append, List.length_singleton]
        omega
      · cases answer

theorem within_walkerStep? {i : Nat} (within : Within capacity threads workers team)
    (walks : team.walkerStep? pipeline capacity i = some next) : Within capacity threads workers next := by
  obtain ⟨⟨walk, after, logs⟩, steps, rfl⟩ := Option.map_eq_some_iff.mp walks
  have delivers := delivers_step? steps
  obtain ⟨old, new, shared, -, turn, rfl⟩ := turn_of_step? steps
  have walkers : (shared.setWalker i new).walkers.length = threads := by
    rw [SharedWalk.setWalker, turn.walkers, List.length_set]
    exact within.walkers
  cases gives : team.walk.gives i with
  | nil =>
    rw [gives] at delivers
    cases delivers
    exact ⟨walkers, within.workers, within.work⟩
  | cons entry rest =>
    obtain rfl := gives_singleton gives
    rw [gives] at delivers
    obtain ⟨reply, answer⟩ := delivers.answer
    obtain ⟨staff, work⟩ := receiver_within within answer
    exact ⟨walkers, staff, work⟩

theorem within_feederStep? (within : Within capacity threads workers team)
    (feeds : team.feederStep? capacity = some next) : Within capacity threads workers next := by
  unfold feederStep? at feeds
  split at feeds
  · split at feeds
    · cases feeds
      exact ⟨within.walkers, within.workers, within.work⟩
    · cases feeds
  · cases feeds
    exact ⟨within.walkers, within.workers, within.work⟩
  · split at feeds
    · cases feeds
      exact ⟨within.walkers, within.workers, within.work⟩
    · split at feeds
      · rename_i room
        cases feeds
        have fewer : team.work.length < capacity := by simpa [hasRoom] using room
        refine ⟨within.walkers, within.workers, ?_⟩
        rw [List.length_append, List.length_singleton]
        omega
      · cases feeds
  · cases feeds
  · cases feeds

theorem Within.setWorker {rest : List (Option Path)} {progress : Progress σ}
    (within : Within capacity threads workers team) (fewer : rest.length ≤ team.work.length) (i : Nat)
    (worker : Worker) :
    Within capacity threads workers ({ team with work := rest, progress }.setWorker i worker) := by
  refine ⟨within.walkers, ?_, fewer.trans within.work⟩
  rw [Team.setWorker, List.length_set]
  exact within.workers

theorem within_workerStep? {i : Nat} (within : Within capacity threads workers team)
    (works : team.workerStep? pipeline i = some next) : Within capacity threads workers next := by
  unfold workerStep? at works
  split at works
  · split at works
    · cases works
      exact within.setWorker le_rfl i _
    · split at works
      · cases works
      · rename_i work
        cases works
        exact within.setWorker (by rw [work]; simp) i _
      · rename_i work
        cases works
        exact within.setWorker (by rw [work]; simp) i _
  · split at works <;> cases works
    · exact within.setWorker le_rfl i _
    · exact within.setWorker le_rfl i _
    · exact within.setWorker le_rfl i _
  · cases works
  · cases works
  · cases works

theorem within_collectorStep? {task : Task} (within : Within capacity threads workers team)
    (collects : team.collectorStep? task = some next) : Within capacity threads workers next := by
  unfold collectorStep? at collects
  split at collects
  · cases collects
  · obtain ⟨ended, -, rfl⟩ := Option.map_eq_some_iff.mp collects
    cases ended <;> exact ⟨within.walkers, within.workers, within.work⟩

theorem within_step? {actor : Actor} (within : Within capacity threads workers team)
    (steps : team.step? pipeline capacity actor = some next) : Within capacity threads workers next := by
  cases actor with
  | walker i => exact within_walkerStep? within steps
  | closer =>
    obtain ⟨walk, closes, rfl⟩ := Option.map_eq_some_iff.mp steps
    exact ⟨(congrArg List.length (close?_walkers closes).1).trans within.walkers, within.workers, within.work⟩
  | feeder => exact within_feederStep? within steps
  | worker i => exact within_workerStep? within steps
  | collector task => exact within_collectorStep? within steps

theorem Step.within (step : Step pipeline capacity team next) (within : Within capacity threads workers team) :
    Within capacity threads workers next := by
  cases step with
  | timely steps => exact within_step? within steps
  | late steps =>
    have begun : Within capacity threads workers { team with cancelled := false } :=
      ⟨within.walkers, within.workers, within.work⟩
    obtain ⟨walkers, staff, work⟩ := within_step? begun steps
    exact ⟨walkers, staff, work⟩

theorem Reaches.within (reaches : Reaches pipeline capacity team next) (within : Within capacity threads workers team) :
    Within capacity threads workers next := by
  induction reaches with
  | refl => exact within
  | tail _ step ih => exact step.within ih

/-- How many threads walk from a start: none if there is nothing to walk. -/
def threadsOf (threads : Nat) : Except Crash Start → Nat
  | .ok (.tree _ _ _) => threads
  | .ok (.single _) | .error _ => 0

theorem within_begin (room : 0 < capacity) (threads workers : Nat) (progress : Progress σ)
    (first : Except Crash Start) :
    Within capacity (threadsOf threads first) workers (.begin threads workers progress first) := by
  rcases first with crash | ⟨path | ⟨job, visited, logs⟩⟩
  · exact ⟨rfl, List.length_replicate, Nat.zero_le _⟩
  · exact ⟨rfl, List.length_replicate, room⟩
  · exact ⟨List.length_replicate, List.length_replicate, Nat.zero_le _⟩

end Team

end SyntaxTally
