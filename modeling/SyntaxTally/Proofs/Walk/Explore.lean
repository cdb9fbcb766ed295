import SyntaxTally.Proofs.Walk.Schedule

/-!
# Walks that follow links

A walk that follows links enters a directory on the first path on which it finds it, and which path that is
depends on the order of the turns. Still all walks keep the same account (`Exploring`): the directories that
were opened and those that wait have been visited once each, and every directory in an opened one has been
visited or is still to be listed. So a walk that is through has opened a set of directories that nothing
leads out of. If all ways to a directory agree, any two such walks have opened the same directories and found
entries that are worth the same in them (`entries_perm`).
-/
namespace SyntaxTally.Walk

open Files Ignore

variable {disk : Disk} {options : Options} {first job child left right : Job} {scopes : List Scope}
  {name : String}

/-! ### Directories that a walk enters -/

theorem mem_freshJobs {visited : List Place} {jobs : List Job} :
    job ∈ freshJobs visited jobs ↔ job ∈ jobs ∧ job.place ∉ visited := by
  simp [freshJobs]

theorem length_le_of_directories {places : List Place} (once : places.Nodup)
    (isDir : ∀ place ∈ places, disk.isDirectoryAt place = true) : places.length ≤ disk.items.length + 1 := by
  have inside : places ⊆ [] :: disk.items.map Prod.fst := by
    intro place member
    have held : disk.item? place = some .directory := by
      simpa [Disk.isDirectoryAt] using isDir place member
    rcases List.eq_nil_or_concat' place with top | ⟨above, name, below⟩
    · exact top ▸ List.mem_cons_self
    · rw [below] at held ⊢
      exact List.mem_cons_of_mem _ (List.mem_map.mpr ⟨_, Disk.mem_of_item? held, rfl⟩)
  simpa using (List.subperm_of_subset once inside).length_le

/-! ### What an exploration keeps -/

/-- A way from one job down to another on which no directory is entered twice, with the jobs above the
last. -/
inductive Trail (disk : Disk) (options : Options) (first : Job) : List Job → Job → Prop where
  | start : Trail disk options first [] first
  | down {above : List Job} {job child : Job} (trail : Trail disk options first above job)
    (inside : child ∈ subjobs disk options job) (fresh : child.place ∉ (job :: above).map Job.place) :
    Trail disk options first (job :: above) child

/-- A walk may enter a directory on the path of the job. -/
def Enters (disk : Disk) (options : Options) (first job : Job) : Prop :=
  ∃ above, Trail disk options first above job

theorem Enters.isDirectoryAt (isDir : disk.isDirectoryAt first.place = true)
    (enters : Enters disk options first job) : disk.isDirectoryAt job.place = true := by
  obtain ⟨above, trail⟩ := enters
  cases trail with
  | start => exact isDir
  | down _ inside => exact isDirectoryAt_of_mem_subjobs inside

/-- What a walk from a first job has done: the directories it has opened, those found that wait, and those
that are still to be met in the listing of an opened one. -/
structure Exploring (disk : Disk) (options : Options) (first : Job) (opened waiting unlisted : List Job)
    (visited : List Place) : Prop where
  entered : visited.Perm ((opened ++ waiting).map Job.place)
  once : visited.Nodup
  begun : first ∈ opened ++ waiting
  found : ∀ job ∈ opened ++ waiting, ∃ above ⊆ opened, Trail disk options first above job
  listed : ∀ parent ∈ opened, ∀ child ∈ subjobs disk options parent,
    child.place ∈ visited ∨ child ∈ unlisted
  known : ∀ child ∈ unlisted, ∃ parent ∈ opened, child ∈ subjobs disk options parent

section

variable {opened waiting unlisted taken later unlistedLater listed rest : List Job} {visited : List Place}

namespace Exploring

theorem start (first : Job) : Exploring disk options first [] [first] [] [first.place] where
  entered := List.Perm.refl _
  once := List.nodup_singleton _
  begun := by simp
  found job member := by
    obtain rfl : job = first := by simpa using member
    exact ⟨[], List.nil_subset _, .start⟩
  listed := by simp
  known := by simp

/-- Some of the directories that wait are opened, and what is in them is to be listed. -/
theorem opens (exploring : Exploring disk options first opened waiting unlisted visited)
    (moved : (taken ++ later).Perm waiting)
    (more : unlistedLater.Perm (unlisted ++ taken.flatMap (subjobs disk options))) :
    Exploring disk options first (opened ++ taken) later unlistedLater visited := by
  have same : (opened ++ taken ++ later).Perm (opened ++ waiting) := by
    rw [List.append_assoc]
    exact moved.append_left opened
  refine ⟨exploring.entered.trans (same.symm.map _), exploring.once, same.mem_iff.mpr exploring.begun,
    fun job member => ?_, fun parent member child inside => ?_, fun child member => ?_⟩
  · obtain ⟨above, among, trail⟩ := exploring.found job (same.mem_iff.mp member)
    exact ⟨above, List.subset_append_of_subset_left _ among, trail⟩
  · rcases List.mem_append.mp member with before | now
    · refine (exploring.listed parent before child inside).imp_right fun still => ?_
      exact more.mem_iff.mpr (List.mem_append_left _ still)
    · exact .inr (more.mem_iff.mpr (List.mem_append_right _ (List.mem_flatMap.mpr ⟨parent, now, inside⟩)))
  · rcases List.mem_append.mp (more.mem_iff.mp member) with before | now
    · obtain ⟨parent, isOpen, inside⟩ := exploring.known child before
      exact ⟨parent, List.mem_append_left _ isOpen, inside⟩
    · obtain ⟨parent, isOpen, inside⟩ := List.mem_flatMap.mp now
      exact ⟨parent, List.mem_append_right _ isOpen, inside⟩

/-- A name is listed, and the directory it leads to waits from now on unless it was visited. -/
theorem lists (exploring : Exploring disk options first opened waiting unlisted visited)
    (atMost : listed.length ≤ 1) (moved : later.Perm (waiting ++ freshJobs visited listed))
    (less : (listed ++ unlistedLater).Perm unlisted) :
    Exploring disk options first opened later unlistedLater
      ((freshJobs visited listed).map Job.place ++ visited) := by
  have known : ∀ child ∈ listed, ∃ parent ∈ opened, child ∈ subjobs disk options parent := fun child member =>
    exploring.known child (less.mem_iff.mp (List.mem_append_left _ member))
  have passed : ∀ job ∈ opened, job.place ∈ visited := fun job member =>
    exploring.entered.mem_iff.mpr (List.mem_map_of_mem (List.mem_append_left _ member))
  have among : ∀ job, job ∈ opened ++ later ↔ job ∈ opened ++ waiting ∨ job ∈ freshJobs visited listed := by
    intro job
    rw [List.mem_append, moved.mem_iff, List.mem_append, List.mem_append, or_assoc]
  refine ⟨?_, ?_, (among first).mpr (.inl exploring.begun), fun job member => ?_,
    fun parent member child inside => ?_, fun child member => ?_⟩
  · rw [List.perm_iff_count]
    intro place
    have before := exploring.entered.count_eq place
    have here := (moved.map Job.place).count_eq place
    simp only [List.map_append, List.count_append] at before here ⊢
    omega
  · have few : (freshJobs visited listed).length ≤ 1 := Nat.le_trans (List.length_filter_le _ _) atMost
    refine List.nodup_append'.mpr ⟨?_, exploring.once, fun place new old => ?_⟩
    · exact List.nodup_iff_count_le_one.mpr fun place =>
        Nat.le_trans List.count_le_length (by simpa using few)
    · obtain ⟨job, fresh, rfl⟩ := List.mem_map.mp new
      exact (mem_freshJobs.mp fresh).2 old
  · rcases (among job).mp member with before | now
    · exact exploring.found job before
    · -- the way to the parent leads through opened directories, and so not through the new one
      obtain ⟨isListed, fresh⟩ := mem_freshJobs.mp now
      obtain ⟨parent, isOpen, inside⟩ := known job isListed
      obtain ⟨above, through, trail⟩ := exploring.found parent (List.mem_append_left _ isOpen)
      have onTheWay : parent :: above ⊆ opened := List.cons_subset.mpr ⟨isOpen, through⟩
      refine ⟨parent :: above, onTheWay, trail.down inside fun again => ?_⟩
      obtain ⟨other, met, same⟩ := List.mem_map.mp again
      exact fresh (same ▸ passed other (onTheWay met))
  · rcases exploring.listed parent member child inside with before | still
    · exact .inl (List.mem_append_right _ before)
    · rcases List.mem_append.mp (less.mem_iff.mpr still) with now | still
      · by_cases met : child.place ∈ visited
        · exact .inl (List.mem_append_right _ met)
        · exact .inl (List.mem_append_left _ (List.mem_map_of_mem (mem_freshJobs.mpr ⟨now, met⟩)))
      · exact .inr still
  · exact exploring.known child (less.mem_iff.mp (List.mem_append_right _ member))

theorem enters (exploring : Exploring disk options first opened waiting unlisted visited)
    (member : job ∈ opened) : Enters disk options first job := by
  obtain ⟨above, -, trail⟩ := exploring.found job (List.mem_append_left _ member)
  exact ⟨above, trail⟩

/-- No more directories can be found than there are. -/
theorem length_le (isDir : disk.isDirectoryAt first.place = true)
    (exploring : Exploring disk options first opened waiting unlisted visited) :
    opened.length + waiting.length ≤ disk.items.length + 1 := by
  have few : visited.length ≤ disk.items.length + 1 := by
    refine length_le_of_directories exploring.once fun place member => ?_
    obtain ⟨job, found, rfl⟩ := List.mem_map.mp (exploring.entered.mem_iff.mp member)
    obtain ⟨above, -, trail⟩ := exploring.found job found
    exact Enters.isDirectoryAt isDir ⟨above, trail⟩
  have entered := exploring.entered.length_eq
  simp only [List.length_map, List.length_append] at entered
  omega

end Exploring

/-! ### The scan explores -/

theorem foldl_explores (links : options.followLinks = true) (names : List String) {found : Expansion}
    (exploring : Exploring disk options first opened (found.jobs ++ rest)
      (names.flatMap (childJobs disk options job scopes)) found.visited) :
    Exploring disk options first opened
      ((names.foldl (addChild disk options job scopes) found).jobs ++ rest) []
      (names.foldl (addChild disk options job scopes) found).visited := by
  induction names generalizing found with
  | nil => exact exploring
  | cons name names ih =>
    obtain ⟨jobs, visited⟩ := addChild_fresh links disk job scopes found name
    rw [List.foldl_cons]
    refine ih ?_
    rw [jobs, visited]
    refine exploring.lists (length_childJobs_le disk options job scopes name) ?_ (List.Perm.refl _)
    rw [List.append_assoc, List.append_assoc]
    exact List.perm_append_comm.append_left _

theorem expand_explores (links : options.followLinks = true)
    (exploring : Exploring disk options first opened (job :: rest) [] visited) :
    Exploring disk options first (opened ++ [job]) ((expand disk options job visited).jobs ++ rest) []
      (expand disk options job visited).visited := by
  have listing : Exploring disk options first (opened ++ [job]) rest (subjobs disk options job) visited :=
    exploring.opens (List.Perm.refl (job :: rest)) (by simp)
  exact foldl_explores links (listedNames disk job) listing

theorem Scans.explores (links : options.followLinks = true)
    (scans : Scans disk options first [first.place] opened waiting visited) :
    Exploring disk options first opened waiting [] visited := by
  induction scans with
  | start => exact .start first
  | pop _ ih => exact expand_explores links ih

/-- A scan that follows links is through when it ends, and hands out the entries of what it has opened. -/
theorem scan_explores {root : Path} {logs : List Log.Record} {batches : List Batch}
    (links : options.followLinks = true)
    (begins : Walk.start disk options root = .ok (.tree first visited logs))
    (scanned : scan disk options root = .ok batches) :
    ∃ opened places, Exploring disk options first opened [] [] places ∧
      batches.flatMap Batch.entries = opened.flatMap (ownEntries disk options) := by
  obtain ⟨found, -, marked⟩ := start_tree begins
  have isDir : disk.isDirectoryAt first.place = true := by simp [Disk.isDirectoryAt, (Disk.lookup_eq_ok found).2]
  rw [if_pos links] at marked
  subst marked
  obtain ⟨all, opened, places, whole, scans, entries⟩ :=
    scan_scans begins fun _ _ _ scans => (scans.explores links).length_le isDir
  obtain rfl : all = batches := Except.ok.inj (whole.symm.trans scanned)
  refine ⟨opened, places, scans.explores links, ?_⟩
  rw [List.flatMap_def, List.flatMap_def, entries]
  rfl

end

/-! ### Several threads explore -/

namespace Walker

/-- The directories that a thread has found and not yet queued or opened. -/
def foundJobs : Walker → List Job
  | holding job => [job]
  | listing _ _ _ jobs _ | queueing jobs _ => jobs
  | waiting | giving _ | stopping _ | breaking _ | ended | lost _ => []

/-- The directories that a thread has yet to meet in its listing. -/
def unlisted (disk : Disk) (options : Options) : Walker → List Job
  | listing job scopes names _ _ => names.flatMap (childJobs disk options job scopes)
  | waiting | holding _ | queueing _ _ | giving _ | stopping _ | breaking _ | ended | lost _ => []

end Walker

namespace SharedWalk

def foundJobs (walk : SharedWalk) : List Job :=
  walk.queue.filterMap id ++ walk.walkers.flatMap Walker.foundJobs

def unlisted (disk : Disk) (options : Options) (walk : SharedWalk) : List Job :=
  walk.walkers.flatMap (Walker.unlisted disk options)

end SharedWalk

variable {opened : List Job} {σ : Type} {receiver : Receiver σ} {walk shared next : SharedWalk}
  {old new : Walker} {state after : σ} {i threads : Nat} {logs : List Log.Record} {trace : Trace}

theorem Turn.explores (links : options.followLinks = true)
    (turn : Turn disk options receiver walk state old new shared after) :
    (∃ lost, (old.opens walk.stopped ++ (shared.queue.filterMap id ++ new.foundJobs) ++ lost).Perm
          (walk.queue.filterMap id ++ old.foundJobs) ∧
        (shared.stopped = false → lost = []) ∧ shared.visited = walk.visited ∧
        new.unlisted disk options =
          old.unlisted disk options ++ (old.opens walk.stopped).flatMap (subjobs disk options)) ∨
      ∃ listed, listed.length ≤ 1 ∧ old.opens walk.stopped = [] ∧ shared.queue = walk.queue ∧
        new.foundJobs = old.foundJobs ++ freshJobs walk.visited listed ∧
        old.unlisted disk options = listed ++ new.unlisted disk options ∧
        shared.visited = (freshJobs walk.visited listed).map Job.place ++ walk.visited := by
  cases turn with
  | @list job scopes name names jobs entries found adds =>
    obtain ⟨jobs, visited⟩ := addChild_fresh links disk job scopes ⟨jobs, entries, [], walk.visited⟩ name
    refine .inr ⟨childJobs disk options job scopes name, length_childJobs_le .., rfl, rfl, ?_, rfl, ?_⟩
    · rw [Walker.foundJobs, adds, jobs]
      rfl
    · rw [adds, visited]
  | @pass job stopped =>
    refine .inl ⟨[job], by simp [stopped, SharedWalk.markDone, Walker.foundJobs, Walker.opens],
      fun goesOn => ?_, rfl, by simp [stopped, Walker.unlisted, Walker.opens]⟩
    simp [SharedWalk.markDone, stopped] at goesOn
  | openDirectory goesOn =>
    refine .inl ⟨[], ?_, fun _ => rfl, rfl, by simp [goesOn, Walker.unlisted, Walker.opens, subjobs]⟩
    simp only [goesOn, Walker.foundJobs, Walker.opens, Bool.false_eq_true, if_false, List.append_nil]
    exact List.perm_append_comm
  | goHome queue | take queue =>
    exact .inl ⟨[], by simp [queue, SharedWalk.markDone, Walker.foundJobs, Walker.opens], fun _ => rfl, rfl,
      by simp [Walker.unlisted, Walker.opens]⟩
  | queueJob =>
    exact .inl ⟨[], by simp [SharedWalk.put, Walker.foundJobs, Walker.opens], fun _ => rfl, rfl,
      by simp [Walker.unlisted, Walker.opens]⟩
  | _ =>
    exact .inl ⟨[], by simp [SharedWalk.stop, SharedWalk.markDone, Walker.foundJobs, Walker.opens],
      fun _ => rfl, rfl, by simp [Walker.unlisted, Walker.opens]⟩

theorem step?_explores (links : options.followLinks = true) {lost : List Job}
    (exploring : Exploring disk options first opened (walk.foundJobs ++ lost) (walk.unlisted disk options)
      walk.visited)
    (steps : walk.step? disk options receiver state i = some (next, after, logs)) :
    ∃ more, Exploring disk options first (opened ++ walk.opens i) (next.foundJobs ++ (more ++ lost))
        (next.unlisted disk options) next.visited ∧
      (next.Unstopped → more = []) := by
  classical
  obtain ⟨old, new, shared, held, turn, rfl⟩ := turn_of_step? steps
  have opens : walk.opens i = old.opens walk.stopped := by rw [SharedWalk.opens, held]; rfl
  -- what the other threads have found or have to list stays as it is
  have found := flatMap_set_perm Walker.foundJobs held new
  have still := flatMap_set_perm (Walker.unlisted disk options) held new
  rcases turn.explores links with ⟨more, moved, whole, visited, unlisted⟩ |
    ⟨listed, atMost, none, queue, foundNow, unlisted, visited⟩
  · refine ⟨more, ?_, fun unstopped => whole unstopped.goesOn⟩
    rw [opens, SharedWalk.setWalker, visited]
    refine exploring.opens ?_ ?_
    · rw [List.perm_iff_count] at moved found ⊢
      intro job
      have here := moved job
      have others := found job
      simp only [SharedWalk.foundJobs, turn.walkers, List.count_append] at here others ⊢
      omega
    · rw [List.perm_iff_count] at still ⊢
      intro job
      have others := still job
      simp only [SharedWalk.unlisted, turn.walkers, unlisted, List.count_append] at others ⊢
      omega
  · refine ⟨[], ?_, fun _ => rfl⟩
    rw [opens, none, List.append_nil, SharedWalk.setWalker, visited]
    refine exploring.lists atMost ?_ ?_
    · rw [List.perm_iff_count] at found ⊢
      intro job
      have others := found job
      simp only [SharedWalk.foundJobs, turn.walkers, queue, foundNow, List.count_append, List.nil_append]
        at others ⊢
      omega
    · rw [List.perm_iff_count] at still ⊢
      intro job
      have others := still job
      simp only [SharedWalk.unlisted, turn.walkers, unlisted, List.count_append] at others ⊢
      omega

theorem close?_explores (closes : walk.close? = some next) :
    next.foundJobs = walk.foundJobs ∧ next.unlisted disk options = walk.unlisted disk options ∧
      next.visited = walk.visited := by
  rcases close?_cases closes with ⟨-, rfl⟩ | ⟨left, -, rfl⟩
  · exact ⟨rfl, rfl, rfl⟩
  · exact ⟨by simp [SharedWalk.foundJobs, SharedWalk.put], rfl, rfl⟩

theorem foundJobs_begin (threads : Nat) (job : Job) (visited : List Place) :
    (SharedWalk.begin threads job visited).foundJobs = [job] := by
  simp [SharedWalk.foundJobs, SharedWalk.begin, Walker.foundJobs]

theorem unlisted_begin (threads : Nat) (job : Job) (visited : List Place) :
    (SharedWalk.begin threads job visited).unlisted disk options = [] := by
  simp [SharedWalk.unlisted, SharedWalk.begin, Walker.unlisted]

theorem Course.explores (links : options.followLinks = true)
    (course : Course disk options (.begin threads first [first.place]) trace walk) :
    ∃ lost, Exploring disk options first trace.opened (walk.foundJobs ++ lost) (walk.unlisted disk options)
        walk.visited ∧
      (walk.Unstopped → lost = []) := by
  induction course with
  | refl =>
    refine ⟨[], ?_, fun _ => rfl⟩
    rw [foundJobs_begin, unlisted_begin]
    exact .start first
  | step _ steps ih =>
    obtain ⟨lost, exploring, whole⟩ := ih
    obtain ⟨more, exploring, wholeStep⟩ := step?_explores links exploring steps
    refine ⟨more ++ lost, ?_, fun unstopped => ?_⟩
    · rw [Trace.opened, List.flatMap_append, List.flatMap_singleton]
      exact exploring
    · rw [wholeStep unstopped, whole (unstopped_of_step? steps unstopped)]
      rfl
  | close _ closes ih =>
    obtain ⟨found, unlisted, visited⟩ := close?_explores closes
    rw [found, unlisted, visited, unstopped_close? closes]
    exact ih

theorem Walker.foundJobs_of_idle {walker : Walker} (idle : walker.isBusy = false) : walker.foundJobs = [] := by
  cases walker with
  | waiting | ended | lost => rfl
  | _ => cases idle

theorem Walker.unlisted_of_idle {walker : Walker} (idle : walker.isBusy = false) :
    walker.unlisted disk options = [] := by
  cases walker with
  | waiting | ended | lost => rfl
  | _ => cases idle

theorem foundJobs_of_idle (onlyMarks : ∀ item ∈ walk.queue, item = none)
    (idle : ∀ walker ∈ walk.walkers, walker.isBusy = false) : walk.foundJobs = [] := by
  rw [SharedWalk.foundJobs, List.append_eq_nil_iff, List.flatMap_eq_nil_iff]
  exact ⟨by simpa [List.filterMap_eq_nil_iff] using onlyMarks,
    fun walker member => Walker.foundJobs_of_idle (idle walker member)⟩

theorem unlisted_of_idle (idle : ∀ walker ∈ walk.walkers, walker.isBusy = false) :
    walk.unlisted disk options = [] :=
  List.flatMap_eq_nil_iff.mpr fun walker member => Walker.unlisted_of_idle (idle walker member)

/-- A walk that nobody works at any more has explored what it has opened, and given the entries there. -/
theorem Course.explored (links : options.followLinks = true)
    (course : Course disk options (.begin threads first [first.place]) trace walk) (unstopped : walk.Unstopped)
    (onlyMarks : ∀ item ∈ walk.queue, item = none) (idle : ∀ walker ∈ walk.walkers, walker.isBusy = false) :
    Exploring disk options first trace.opened [] [] walk.visited ∧
      trace.given.Perm (trace.opened.flatMap (ownEntries disk options)) := by
  obtain ⟨lost, exploring, whole⟩ := course.explores links
  obtain ⟨lostEntries, given, wholeEntries⟩ := course.entries
  rw [whole unstopped, foundJobs_of_idle onlyMarks idle, unlisted_of_idle idle] at exploring
  rw [entries_begin, List.nil_append, wholeEntries unstopped, entries_of_idle disk options idle,
    List.append_nil, List.append_nil] at given
  exact ⟨exploring, given.symm⟩

/-! ### Ways to the same directory -/

/-- Two ways lead to the same directory. It may be listed on both or on none, each of its ignore files can be read
on both or on none, and the names in it that the walk looks at lead to the same, can be entered and are ignored
alike. -/
structure SameWay (disk : Disk) (options : Options) (left right : Job) : Prop where
  place : left.place = right.place
  barred : (disk.barrier? left.path).isSome = (disk.barrier? right.path).isSome
  told : ∀ name ∈ ignoreFileNames, (readIgnoreFile disk (left.path.child name)).2.length =
    (readIgnoreFile disk (right.path.child name)).2.length
  leads : ∀ name ∈ disk.namesIn left.place, admits options name = true →
    (target disk left name).toOption = (target disk right name).toOption
  entered : ∀ name ∈ disk.namesIn left.place, admits options name = true →
    ∀ found, target disk left name = .ok (some (found, .directory)) →
      (Followable disk options (left.path.child name) ↔ Followable disk options (right.path.child name))
  kept : ∀ name ∈ disk.namesIn left.place, admits options name = true →
    ∀ found item, target disk left name = .ok (some (found, item)) →
      ignored (belowOf left name) (item = .directory) (scopesAt disk options left) =
        ignored (belowOf right name) (item = .directory) (scopesAt disk options right)

/-- All ways on which a walk may enter a directory agree. -/
def WaysAgree (disk : Disk) (options : Options) (first : Job) : Prop :=
  ∀ left right, Enters disk options first left → Enters disk options first right → left.place = right.place →
    SameWay disk options left right

namespace SameWay

theorem listedNames (same : SameWay disk options left right) :
    Walk.listedNames disk left = Walk.listedNames disk right := by
  rw [Walk.listedNames, Walk.listedNames, same.barred, same.place]

theorem target_eq_ok (same : SameWay disk options left right) (listed : name ∈ disk.namesIn left.place)
    (admitted : admits options name = true) {found : Option (Place × Item)}
    (leads : target disk left name = .ok found) : target disk right name = .ok found := by
  have alike := same.leads name listed admitted
  rw [leads] at alike
  cases also : target disk right name with
  | error => simp [also, Except.toOption] at alike
  | ok other => rw [also] at alike; rw [Option.some.inj alike]

theorem target_eq_error (same : SameWay disk options left right) (listed : name ∈ disk.namesIn left.place)
    (admitted : admits options name = true) {fault : Fault} (leads : target disk left name = .error fault) :
    ∃ other, target disk right name = .error other := by
  have alike := same.leads name listed admitted
  rw [leads] at alike
  cases also : target disk right name with
  | error other => exact ⟨other, rfl⟩
  | ok => simp [also, Except.toOption] at alike

theorem subjob (same : SameWay disk options left right) (inside : child ∈ subjobs disk options left) :
    ∃ twin ∈ subjobs disk options right, twin.place = child.place := by
  obtain ⟨name, listed, given⟩ := mem_subjobs.mp inside
  obtain ⟨admitted, followed, place, leads, kept, followable, rfl⟩ := mem_childJobs.mp given
  have inDir := listedNames_subset listed
  have alike := same.kept name inDir admitted place .directory leads
  rw [decide_eq_true rfl, kept] at alike
  rw [same.place] at followed
  rw [same.listedNames] at listed
  refine ⟨_, mem_subjobs.mpr ⟨name, listed, mem_childJobs.mpr ⟨admitted, followed, place, ?_, alike.symm, ?_, rfl⟩⟩,
    rfl⟩
  · exact same.target_eq_ok inDir admitted leads
  · exact (same.entered name inDir admitted place leads).mp followable

section

variable {α : Type} {worth : Entry → α}
  (failures : ∀ path fault other more, worth (.failure path fault) = worth (.failure other more))
  (files : ∀ name place bytes, target disk left name = .ok (some (place, .file bytes)) →
    target disk right name = .ok (some (place, .file bytes)) →
    worth (.file (left.path.child name)) = worth (.file (right.path.child name)))

include failures in
theorem map_readRules (same : SameWay disk options left right) :
    (readRules disk left.path).2.map worth = (readRules disk right.path).2.map worth := by
  rw [readRules, readRules, List.map_flatMap, List.map_flatMap]
  refine List.flatMap_congr fun name listed => ?_
  have count := same.told name listed
  rcases readIgnoreFile_failures disk (left.path.child name) with none | ⟨fault, one⟩
  · rw [none] at count ⊢
    rw [List.length_eq_zero_iff.mp count.symm]
  · rcases readIgnoreFile_failures disk (right.path.child name) with none | ⟨other, also⟩
    · simp [one, none] at count
    · rw [one, also]
      exact congrArg (fun value => [value]) (failures _ _ _ _)

include failures in
theorem map_addJob {other : Job} (followable : Followable disk options job.path ↔ Followable disk options other.path) :
    (addJob disk options ⟨[], [], [], []⟩ job).entries.map worth =
      (addJob disk options ⟨[], [], [], []⟩ other).entries.map worth := by
  unfold Followable at followable
  unfold addJob
  cases links : options.followLinks with
  | false => rfl
  | true =>
    cases led : disk.placeOf true job.path with
    | ok => cases also : disk.placeOf true other.path <;> simp_all
    | error =>
      cases also : disk.placeOf true other.path with
      | ok => simp_all
      | error => exact congrArg (fun value => [value]) (failures _ _ _ _)

include failures files in
theorem map_childEntries (same : SameWay disk options left right) (listed : name ∈ disk.namesIn left.place) :
    (childEntries disk options left (scopesAt disk options left) name).map worth =
      (childEntries disk options right (scopesAt disk options right) name).map worth := by
  unfold childEntries childFound addChild
  simp only [← same.place]
  split
  · rfl
  rename_i looks
  have admitted : admits options name = true := by simpa using looks
  split
  · rfl
  cases leads : target disk left name with
  | error fault =>
    obtain ⟨other, also⟩ := same.target_eq_error listed admitted leads
    rw [also]
    exact congrArg (fun value => [value]) (failures _ _ _ _)
  | ok found =>
    have also := same.target_eq_ok listed admitted leads
    rw [also]
    rcases found with _ | ⟨place, item⟩
    · rfl
    · have alike := same.kept name listed admitted place item leads
      cases item with
      | link | socket => rfl
      | directory =>
        rw [decide_eq_true rfl] at alike
        simp only [alike]
        split
        · rfl
        · exact map_addJob failures (same.entered name listed admitted place leads)
      | file bytes =>
        rw [decide_eq_false Item.noConfusion] at alike
        simp only [alike]
        split
        · rfl
        · exact congrArg (fun value => [value]) (files _ _ _ leads also)

include failures files in
/-- The entries in a directory are worth the same on all ways to it, if failures and files in the same
place are. -/
theorem map_ownEntries (same : SameWay disk options left right) :
    (ownEntries disk options left).map worth = (ownEntries disk options right).map worth := by
  have barred : (barredEntry disk left).map worth = (barredEntry disk right).map worth := by
    have alike := same.barred
    unfold barredEntry
    cases one : disk.barrier? left.path with
    | none => cases other : disk.barrier? right.path <;> simp_all
    | some =>
      cases other : disk.barrier? right.path with
      | none => simp_all
      | some => exact congrArg (fun value => [value]) (failures _ _ _ _)
  have listed : ((Walk.listedNames disk left).flatMap
        (childEntries disk options left (scopesAt disk options left))).map worth =
      ((Walk.listedNames disk right).flatMap
        (childEntries disk options right (scopesAt disk options right))).map worth := by
    rw [← same.listedNames, List.map_flatMap, List.map_flatMap]
    exact List.flatMap_congr fun name member =>
      same.map_childEntries failures files (listedNames_subset member)
  rw [ownEntries, ownEntries, List.map_append, List.map_append, List.map_append, List.map_append, barred,
    listed, same.map_readRules failures]

end

end SameWay

/-! ### Explorations that are through -/

section

variable {others waiting unlisted : List Job} {visited places : List Place} {α : Type} {worth : Entry → α}

/-- An exploration that is through has opened each directory that a walk may enter. -/
theorem exists_opened (agree : WaysAgree disk options first)
    (explored : Exploring disk options first others [] [] places) (enters : Enters disk options first job) :
    ∃ twin ∈ others, twin.place = job.place := by
  obtain ⟨above, trail⟩ := enters
  -- step by step down the way: what was opened for the parent leads to the directory of the child as well
  induction trail with
  | start => exact ⟨first, by simpa using explored.begun, rfl⟩
  | @down above job child trail inside _ ih =>
    obtain ⟨twin, isOpen, same⟩ := ih
    have alike := agree job twin ⟨above, trail⟩ (explored.enters isOpen) same.symm
    obtain ⟨other, beside, there⟩ := alike.subjob inside
    rcases explored.listed twin isOpen other beside with met | still
    · rw [← there]
      simpa using explored.entered.mem_iff.mp met
    · cases still

theorem places_perm (agree : WaysAgree disk options first)
    (explored : Exploring disk options first opened [] [] visited)
    (alsoExplored : Exploring disk options first others [] [] places) :
    (opened.map Job.place).Perm (others.map Job.place) := by
  have nodup : ∀ {jobs : List Job} {met : List Place}, Exploring disk options first jobs [] [] met →
      (jobs.map Job.place).Nodup := fun explored => by
    simpa using explored.entered.nodup_iff.mp explored.once
  have among : ∀ {jobs more : List Job} {met seen : List Place}, Exploring disk options first jobs [] [] met →
      Exploring disk options first more [] [] seen → jobs.map Job.place ⊆ more.map Job.place := by
    intro jobs more met seen one other place member
    obtain ⟨job, isOpen, rfl⟩ := List.mem_map.mp member
    obtain ⟨twin, there, same⟩ := exists_opened agree other (one.enters isOpen)
    exact List.mem_map.mpr ⟨twin, there, same⟩
  refine (List.perm_ext_iff_of_nodup (nodup explored) (nodup alsoExplored)).mpr fun place => ?_
  exact ⟨fun member => among explored alsoExplored member, fun member => among alsoExplored explored member⟩

theorem exists_worth (agree : WaysAgree disk options first) (failures : ∀ path fault other more,
      worth (.failure path fault) = worth (.failure other more))
    (files : ∀ left right, Enters disk options first left → Enters disk options first right →
      left.place = right.place →
      ∀ name place bytes, target disk left name = .ok (some (place, .file bytes)) →
        target disk right name = .ok (some (place, .file bytes)) →
        worth (.file (left.path.child name)) = worth (.file (right.path.child name))) :
    ∃ own : Place → List α, ∀ job, Enters disk options first job →
      (ownEntries disk options job).map worth = own job.place := by
  classical
  -- any way to the place will do, since all of them agree
  refine ⟨fun place => if way : ∃ job, Enters disk options first job ∧ job.place = place then
    (ownEntries disk options way.choose).map worth else [], fun job enters => ?_⟩
  have way : ∃ other, Enters disk options first other ∧ other.place = job.place := ⟨job, enters, rfl⟩
  simp only [dif_pos way]
  obtain ⟨chosen, same⟩ := way.choose_spec
  exact (agree job way.choose enters chosen same.symm).map_ownEntries failures
    (files job way.choose enters chosen same.symm)

theorem map_flatMap_ownEntries {own : Place → List α} (shown : ∀ job, Enters disk options first job →
      (ownEntries disk options job).map worth = own job.place)
    (exploring : Exploring disk options first opened waiting unlisted visited) :
    (opened.flatMap (ownEntries disk options)).map worth = (opened.map Job.place).flatMap own := by
  rw [List.map_flatMap, List.flatMap_map]
  exact List.flatMap_congr fun job member => shown job (exploring.enters member)

/-- Two explorations that are through have found entries that are worth the same. -/
theorem entries_perm {own : Place → List α} (agree : WaysAgree disk options first)
    (shown : ∀ job, Enters disk options first job → (ownEntries disk options job).map worth = own job.place)
    (explored : Exploring disk options first opened [] [] visited)
    (alsoExplored : Exploring disk options first others [] [] places) :
    ((opened.flatMap (ownEntries disk options)).map worth).Perm
      ((others.flatMap (ownEntries disk options)).map worth) := by
  rw [map_flatMap_ownEntries shown explored, map_flatMap_ownEntries shown alsoExplored]
  exact (places_perm agree explored alsoExplored).flatMap_right own

/-- Each entry of an exploration that is not through has its like in one that is. -/
theorem exists_twin {own : Place → List α} {entry : Entry} (agree : WaysAgree disk options first)
    (shown : ∀ job, Enters disk options first job → (ownEntries disk options job).map worth = own job.place)
    (exploring : Exploring disk options first opened waiting unlisted visited)
    (explored : Exploring disk options first others [] [] places)
    (found : entry ∈ opened.flatMap (ownEntries disk options)) :
    ∃ twin ∈ others.flatMap (ownEntries disk options), worth twin = worth entry := by
  obtain ⟨job, isOpen, inside⟩ := List.mem_flatMap.mp found
  obtain ⟨other, there, same⟩ := exists_opened agree explored (exploring.enters isOpen)
  have alike : (ownEntries disk options other).map worth = (ownEntries disk options job).map worth := by
    rw [shown other (explored.enters there), shown job (exploring.enters isOpen), same]
  have member : worth entry ∈ (ownEntries disk options other).map worth :=
    alike ▸ List.mem_map_of_mem inside
  obtain ⟨twin, beside, is⟩ := List.mem_map.mp member
  exact ⟨twin, List.mem_flatMap.mpr ⟨other, there, beside⟩, is⟩

end

/-! ### Disks without rules -/

/-- There is no ignore file on the disk. -/
def Ruleless (disk : Disk) : Prop :=
  ∀ entry ∈ disk.items, ∀ name ∈ ignoreFileNames, entry.1.getLast? ≠ some name

instance (disk : Disk) : Decidable (Ruleless disk) := by
  unfold Ruleless
  infer_instance

namespace Ruleless

theorem item? (ruleless : Ruleless disk) (place : Place) (listed : name ∈ ignoreFileNames) :
    disk.item? (place ++ [name]) = none := by
  cases found : disk.item? (place ++ [name]) with
  | none => rfl
  | some item => exact absurd (by simp) (ruleless _ (Disk.mem_of_item? found) name listed)

/-- On whatever way a directory is reached, no ignore file is found in it. -/
theorem bytesAt (ruleless : Ruleless disk) {path : Path} {place : Place} (listed : name ∈ ignoreFileNames)
    (leads : disk.placeOf true (path.child name) = .ok place) : disk.bytesAt place = .error .missing := by
  obtain ⟨_, -, all⟩ := Disk.leads_of_placeOf leads
  obtain ⟨-, _, above, -, -, last⟩ := Disk.Leads.split all
  have missing := ruleless.item? above listed
  cases last with
  | link linked => simp [linked.found] at missing
  | step steps onward =>
    cases onward
    rw [steps.eq_append (Disk.isStep_of_isName (isName_of_ignoreFile listed)), Disk.bytesAt, missing]

theorem readRules (ruleless : Ruleless disk) (path : Path) : (Walk.readRules disk path).1 = [] := by
  refine List.flatMap_eq_nil_iff.mpr fun name listed => ?_
  have unread : ∃ fault, disk.readBytes (path.child name) = .error fault := by
    cases leads : disk.placeOf true (path.child name) with
    | error fault => exact ⟨fault, by simp [Disk.readBytes, leads, bind, Except.bind]⟩
    | ok place => exact ⟨.missing, by simp [Disk.readBytes, leads, bind, Except.bind, ruleless.bytesAt listed leads]⟩
  obtain ⟨fault, unread⟩ := unread
  exact readIgnoreFile_of_error unread

theorem scopesAt (ruleless : Ruleless disk) (noneExcluded : options.excluded = [])
    (above : job.scopes = []) : Walk.scopesAt disk options job = [] := by
  simp [Walk.scopesAt, scopesIn, ruleless.readRules, above, excludeScope, noneExcluded, parseLines]

end Ruleless

/-! ### A ring of links -/

def following : Options := { followLinks := true }

/-- A directory with a link up to the top, a link to it beside it, and a directory that no walk looks into. -/
def ringDisk : Disk where
  items := [([".git"], .directory), ([".git", "x.py"], .file []), (["d"], .directory),
    (["d", "c.py"], .file []), (["d", "up"], .link ".."), (["l"], .link "d")]
  here := []
  home := "/"
  locked := []
  sealed := []
  tree := by decide

/-- The directory below the top, by its own name or by that of the link. -/
def ringJob (name : String) : Job := { path := ⟨1, [name]⟩, place := ["d"], below := name.toList, scopes := [] }

theorem start_ringDisk : start ringDisk following ⟨1, []⟩ = .ok (.tree topJob [[]] []) := by decide +kernel

theorem enters_ringDisk (enters : Enters ringDisk following topJob job) :
    job = topJob ∨ job = ringJob "d" ∨ job = ringJob "l" := by
  have atTop : subjobs ringDisk following topJob = [ringJob "d", ringJob "l"] := by decide +kernel
  have ended : ∀ name ∈ ["d", "l"], ∀ child ∈ subjobs ringDisk following (ringJob name), child.place = [] := by
    decide +kernel
  -- the way down ends there, as the only link leads to the top again
  obtain ⟨above, trail⟩ := enters
  induction trail with
  | start => exact .inl rfl
  | @down above job child trail inside fresh ih =>
    have again : [] ∈ (job :: above).map Job.place := by
      clear ih inside fresh
      induction trail with
      | start => exact List.mem_cons_self
      | down _ _ _ ih => exact List.mem_cons_of_mem _ ih
    rcases ih with rfl | rfl | rfl
    · rw [atTop] at inside
      exact .inr (by simpa using inside)
    · exact absurd (ended "d" (by simp) child inside ▸ again) fresh
    · exact absurd (ended "l" (by simp) child inside ▸ again) fresh

end SyntaxTally.Walk
