import SyntaxTally.Proofs.Walk.Explore

/-!
# The jobs that a walk makes

A thread makes a job for each directory that it goes on into. Wherever the links of a disk lead and in whatever
order the threads take turns, no directory gets two jobs (`Course.once`). `Accounts` says what all jobs were made
for, and holds at every point of a walk of several threads (`Course.accounts`) and of the scan (`Scans.accounts`).
-/
namespace SyntaxTally.Walk

open Files Ignore

variable {disk : Disk} {options : Options} {first job child parent : Job} {scopes : List Scope} {name : String}
  {σ : Type} {receiver : Receiver σ} {walk shared next : SharedWalk} {old new walker : Walker} {state after : σ}
  {i threads : Nat} {logs : List Log.Record} {trace : Trace} {visited : List Place}

/-! ### Jobs that are made on the way -/

namespace Walker

/-- The directory that the name a thread lists next leads to. -/
def meets (disk : Disk) (options : Options) : Walker → List Job
  | listing job scopes (name :: _) _ _ => childJobs disk options job scopes name
  | _ => []

/-- The job that the next step of a thread makes. -/
def creates (disk : Disk) (options : Options) (visited : List Place) : Walker → List Job
  | listing job scopes (name :: _) _ _ => (addChild disk options job scopes ⟨[], [], [], visited⟩ name).jobs
  | _ => []

theorem creates_of_links (links : options.followLinks = true) (disk : Disk) (visited : List Place)
    (walker : Walker) :
    walker.creates disk options visited = freshJobs visited (walker.meets disk options) := by
  unfold creates meets
  split
  · exact (addChild_fresh links _ _ _ _ _).1
  · rfl

theorem creates_of_noLinks (links : options.followLinks = false) (disk : Disk) (visited : List Place)
    (walker : Walker) : walker.creates disk options visited = walker.meets disk options := by
  unfold creates meets
  split
  · exact (addChild_eq links _ _ _ _ _).1
  · rfl

theorem creates_subset (disk : Disk) (options : Options) (visited : List Place) (walker : Walker) :
    walker.creates disk options visited ⊆ walker.meets disk options := by
  intro job member
  cases links : options.followLinks with
  | true =>
    rw [creates_of_links links] at member
    exact (mem_freshJobs.mp member).1
  | false => rwa [creates_of_noLinks links] at member

end Walker

namespace SharedWalk

def meets (disk : Disk) (options : Options) (walk : SharedWalk) (i : Nat) : List Job :=
  (walk.walkers[i]?.map (Walker.meets disk options)).getD []

def creates (disk : Disk) (options : Options) (walk : SharedWalk) (i : Nat) : List Job :=
  (walk.walkers[i]?.map (Walker.creates disk options walk.visited)).getD []

theorem creates_subset (disk : Disk) (options : Options) (walk : SharedWalk) (i : Nat) :
    walk.creates disk options i ⊆ walk.meets disk options i := by
  unfold creates meets
  cases walk.walkers[i]? with
  | none => exact List.Subset.refl _
  | some walker => exact walker.creates_subset disk options walk.visited

end SharedWalk

namespace Trace

def met (disk : Disk) (options : Options) (trace : Trace) : List Job :=
  trace.flatMap fun turn => turn.1.meets disk options turn.2

def created (disk : Disk) (options : Options) (trace : Trace) : List Job :=
  trace.flatMap fun turn => turn.1.creates disk options turn.2

theorem created_subset (disk : Disk) (options : Options) (trace : Trace) :
    trace.created disk options ⊆ trace.met disk options := by
  intro job member
  obtain ⟨turn, made, inside⟩ := List.mem_flatMap.mp member
  exact List.mem_flatMap.mpr ⟨turn, made, turn.1.creates_subset disk options turn.2 inside⟩

theorem created_of_noLinks (links : options.followLinks = false) (disk : Disk) (trace : Trace) :
    trace.created disk options = trace.met disk options := by
  refine List.flatMap_congr fun turn _ => ?_
  unfold SharedWalk.creates SharedWalk.meets
  cases turn.1.walkers[turn.2]? with
  | none => rfl
  | some walker => exact walker.creates_of_noLinks links disk turn.1.visited

end Trace

/-- The directories in an opened one are met one after the other. -/
theorem Turn.unlisted (turn : Turn disk options receiver walk state old new shared after) :
    old.unlisted disk options ++ (old.opens walk.stopped).flatMap (subjobs disk options) =
      old.meets disk options ++ new.unlisted disk options := by
  cases turn with
  | pass stopped => simp [stopped, Walker.unlisted, Walker.opens, Walker.meets]
  | openDirectory goesOn => simp [goesOn, Walker.unlisted, Walker.opens, Walker.meets, subjobs]
  | list => simp [Walker.unlisted, Walker.opens, Walker.meets]
  | _ => simp [Walker.unlisted, Walker.opens, Walker.meets]

theorem step?_unlisted (steps : walk.step? disk options receiver state i = some (next, after, logs)) :
    (walk.unlisted disk options ++ (walk.opens i).flatMap (subjobs disk options)).Perm
      (walk.meets disk options i ++ next.unlisted disk options) := by
  classical
  obtain ⟨old, new, shared, held, turn, rfl⟩ := turn_of_step? steps
  rw [List.perm_iff_count]
  intro job
  have here := congrArg (List.count job) turn.unlisted
  have others := (flatMap_set_perm (Walker.unlisted disk options) held new).count_eq job
  simp only [SharedWalk.unlisted, SharedWalk.opens, SharedWalk.meets, SharedWalk.setWalker, turn.walkers, held,
    Option.map_some, Option.getD_some, List.count_append] at here others ⊢
  omega

/-- What was met and what is still to be met are the directories in the opened ones. -/
theorem Course.met (course : Course disk options (.begin threads first visited) trace walk) :
    (trace.opened.flatMap (subjobs disk options)).Perm
      (trace.met disk options ++ walk.unlisted disk options) := by
  classical
  induction course with
  | refl =>
    rw [unlisted_begin]
    exact List.Perm.refl _
  | step _ steps ih =>
    rw [List.perm_iff_count] at ih ⊢
    intro job
    have before := ih job
    have here := (step?_unlisted steps).count_eq job
    simp only [Trace.opened, Trace.met, List.flatMap_append, List.flatMap_singleton, List.count_append]
      at before here ⊢
    omega
  | close _ closes ih =>
    rw [(close?_explores closes).2.1]
    exact ih

theorem Course.created_subset (course : Course disk options (.begin threads first visited) trace walk) :
    trace.created disk options ⊆ trace.opened.flatMap (subjobs disk options) := by
  intro job member
  exact course.met.mem_iff.mpr (List.mem_append_left _ (trace.created_subset disk options member))

theorem addChild_jobs (disk : Disk) (options : Options) (job : Job) (scopes : List Scope) (found : Expansion)
    (name : String) :
    (addChild disk options job scopes found name).jobs =
      found.jobs ++ (addChild disk options job scopes ⟨[], [], [], found.visited⟩ name).jobs := by
  cases links : options.followLinks with
  | true => rw [(addChild_fresh links ..).1, (addChild_fresh links ..).1, List.nil_append]
  | false => rw [(addChild_eq links ..).1, (addChild_eq links ..).1, List.nil_append]

theorem addChild_subset (scopes : List Scope) (found : Expansion) (name : String) :
    (addChild disk options job scopes found name).jobs ⊆
      found.jobs ++ childJobs disk options job scopes name := by
  rw [addChild_jobs]
  refine List.append_subset.mpr ⟨List.subset_append_left _ _, ?_⟩
  refine List.Subset.trans ?_ (List.subset_append_right _ _)
  exact (Walker.listing job scopes [name] [] []).creates_subset disk options found.visited

theorem foldl_addChild_subset (scopes : List Scope) (names : List String) (found : Expansion) :
    (names.foldl (addChild disk options job scopes) found).jobs ⊆
      found.jobs ++ names.flatMap (childJobs disk options job scopes) := by
  induction names generalizing found with
  | nil => exact List.subset_append_left _ _
  | cons name rest ih =>
    intro child member
    rcases List.mem_append.mp (ih (addChild disk options job scopes found name) member) with early | late
    · have split := List.mem_append.mp (addChild_subset scopes found name early)
      rw [List.flatMap_cons, ← List.append_assoc]
      exact List.mem_append_left _ (List.mem_append.mpr split)
    · rw [List.flatMap_cons, ← List.append_assoc]
      exact List.mem_append_right _ late

/-- The jobs that an expansion gives are for directories in the expanded one, whatever was visited. -/
theorem expand_jobs_subset (disk : Disk) (options : Options) (job : Job) (seen : List Place) :
    (expand disk options job seen).jobs ⊆ subjobs disk options job :=
  foldl_addChild_subset (scopesAt disk options job) (listedNames disk job) _

theorem Turn.made (turn : Turn disk options receiver walk state old new shared after) :
    ∃ lost, (old.opens walk.stopped ++ (shared.queue.filterMap id ++ new.foundJobs) ++ lost).Perm
        (walk.queue.filterMap id ++ old.foundJobs ++ old.creates disk options walk.visited) ∧
      (shared.stopped = false → lost = []) := by
  cases turn with
  | @list job scopes name names jobs entries found adds =>
    refine ⟨[], ?_, fun _ => rfl⟩
    rw [adds, Walker.foundJobs, addChild_jobs]
    simp [Walker.foundJobs, Walker.creates, Walker.opens]
  | @pass job stopped =>
    refine ⟨[job], by simp [stopped, SharedWalk.markDone, Walker.foundJobs, Walker.creates, Walker.opens],
      fun goesOn => ?_⟩
    simp [SharedWalk.markDone, stopped] at goesOn
  | openDirectory goesOn =>
    refine ⟨[], ?_, fun _ => rfl⟩
    simp only [goesOn, Walker.foundJobs, Walker.creates, Walker.opens, Bool.false_eq_true, if_false,
      List.append_nil]
    exact List.perm_append_comm
  | goHome queue | take queue =>
    exact ⟨[], by simp [queue, SharedWalk.markDone, Walker.foundJobs, Walker.creates, Walker.opens],
      fun _ => rfl⟩
  | queueJob =>
    exact ⟨[], by simp [SharedWalk.put, Walker.foundJobs, Walker.creates, Walker.opens], fun _ => rfl⟩
  | _ =>
    exact ⟨[], by simp [SharedWalk.stop, SharedWalk.markDone, Walker.foundJobs, Walker.creates, Walker.opens],
      fun _ => rfl⟩

theorem step?_made (steps : walk.step? disk options receiver state i = some (next, after, logs)) :
    ∃ lost, (walk.foundJobs ++ walk.creates disk options i).Perm (walk.opens i ++ next.foundJobs ++ lost) ∧
      (next.Unstopped → lost = []) := by
  classical
  obtain ⟨old, new, shared, held, turn, rfl⟩ := turn_of_step? steps
  obtain ⟨lost, same, whole⟩ := turn.made
  refine ⟨lost, List.perm_iff_count.mpr fun job => ?_, fun unstopped => whole unstopped.goesOn⟩
  have here := same.count_eq job
  have others := (flatMap_set_perm Walker.foundJobs held new).count_eq job
  simp only [SharedWalk.foundJobs, SharedWalk.creates, SharedWalk.opens, SharedWalk.setWalker, turn.walkers,
    held, Option.map_some, Option.getD_some, List.count_append] at here others ⊢
  omega

/-- Each job that is made is opened once, waits, or was dropped when the walk was stopped. -/
theorem Course.made (course : Course disk options (.begin threads first visited) trace walk) :
    ∃ lost, (first :: trace.created disk options).Perm (trace.opened ++ walk.foundJobs ++ lost) ∧
      (walk.Unstopped → lost = []) := by
  obtain ⟨lost, same, whole⟩ := course.spends (SharedWalk.creates disk options) step?_made
    fun closes => (@close?_explores disk options _ _ closes).1
  rw [foundJobs_begin] at same
  exact ⟨lost, same, whole⟩

/-! ### No directory has two jobs -/

theorem Turn.visited_eq (links : options.followLinks = true)
    (turn : Turn disk options receiver walk state old new shared after) :
    shared.visited = (old.creates disk options walk.visited).map Job.place ++ walk.visited := by
  cases turn with
  | @list job scopes name names jobs entries found adds =>
    rw [Walker.creates_of_links links, adds]
    exact (addChild_fresh links disk job scopes ⟨jobs, entries, [], walk.visited⟩ name).2
  | _ => rfl

/-- A walk that follows links marks the directories that it makes jobs for, and no other ones. -/
theorem Course.visited_perm (links : options.followLinks = true)
    (course : Course disk options (.begin threads first [first.place]) trace walk) :
    walk.visited.Perm ((first :: trace.created disk options).map Job.place) := by
  induction course with
  | refl => exact List.Perm.refl _
  | step _ steps ih =>
    obtain ⟨old, new, shared, held, turn, rfl⟩ := turn_of_step? steps
    rw [SharedWalk.setWalker, turn.visited_eq links, Trace.created, List.flatMap_append, List.flatMap_singleton,
      SharedWalk.creates, held, ← List.cons_append, List.map_append]
    exact (List.perm_append_comm.trans (ih.append_right _))
  | close _ closes ih =>
    rcases close?_cases closes with ⟨-, rfl⟩ | ⟨left, -, rfl⟩
    · exact ih
    · exact ih

theorem mem_subjobs_of_noLinks (links : options.followLinks = false)
    (inside : child ∈ subjobs disk options parent) :
    ∃ name ∈ listedNames disk parent, child.place = parent.place ++ [name] := by
  rw [subjobs_eq links] at inside
  obtain ⟨name, kept, rfl⟩ := List.mem_map.mp inside
  exact ⟨name, (List.mem_filter.mp kept).1, rfl⟩

theorem nodup_flatMap_subjobs (links : options.followLinks = false) {opened : List Job}
    (once : (opened.map Job.place).Nodup) :
    ((opened.flatMap (subjobs disk options)).map Job.place).Nodup := by
  rw [List.map_flatMap, List.nodup_flatMap]
  constructor
  · intro job _
    rw [subjobs_eq links, List.map_map]
    refine ((nodup_listedNames disk job).filter _).map fun left right same => ?_
    simpa [childJob] using same
  · refine (List.pairwise_map.mp once).imp fun {left right} different place ofLeft ofRight => ?_
    obtain ⟨one, inLeft, rfl⟩ := List.mem_map.mp ofLeft
    obtain ⟨other, inRight, same⟩ := List.mem_map.mp ofRight
    obtain ⟨name, -, below⟩ := mem_subjobs_of_noLinks links inLeft
    obtain ⟨last, -, belowToo⟩ := mem_subjobs_of_noLinks links inRight
    rw [below, belowToo] at same
    exact different (List.append_inj_left' same rfl).symm

theorem Course.nodup_created (links : options.followLinks = false)
    (course : Course disk options (.begin threads first visited) trace walk) :
    ((first :: trace.created disk options).map Job.place).Nodup := by
  obtain ⟨lost, same, -⟩ := course.reached links
  rw [jobs_begin] at same
  have met := (course.met.map Job.place).nodup_iff.mp
    (nodup_flatMap_subjobs links (course.nodup_opened links))
  rw [List.map_append] at met
  rw [List.map_cons, trace.created_of_noLinks links disk]
  refine List.nodup_cons.mpr ⟨fun again => ?_, met.of_append_left⟩
  -- the first directory lies above all the others
  obtain ⟨child, found, place⟩ := List.mem_map.mp again
  obtain ⟨parent, opened, inside⟩ := List.mem_flatMap.mp (course.met.mem_iff.mpr (List.mem_append_left _ found))
  obtain ⟨name, -, below⟩ := mem_subjobs_of_noLinks links inside
  have reached : parent ∈ Walk.reached disk options [first] := same.mem_iff.mpr (by simp [opened])
  obtain ⟨top, listed, down⟩ := (mem_reached_iff links).mp reached
  obtain rfl := List.mem_singleton.mp listed
  have shorter := (down.place links).length_le
  rw [← place, below] at shorter
  simp at shorter

/-- The first job of a walk and what is marked when it begins. -/
structure Begins (disk : Disk) (options : Options) (first : Job) (visited : List Place) : Prop where
  isDir : disk.isDirectoryAt first.place = true
  marked : visited = if options.followLinks then [first.place] else []

theorem begins_start {root : Path} (begins : start disk options root = .ok (.tree first visited logs)) :
    Begins disk options first visited := by
  obtain ⟨found, -, marked⟩ := start_tree begins
  exact ⟨by simp [Disk.isDirectoryAt, (Disk.lookup_eq_ok found).2], marked⟩

/-- No directory has two jobs, whether links are followed or not. -/
theorem Course.once (begins : Begins disk options first visited)
    (course : Course disk options (.begin threads first visited) trace walk) :
    ((first :: trace.created disk options).map Job.place).Nodup := by
  cases links : options.followLinks with
  | true =>
    obtain rfl : visited = [first.place] := by rw [begins.marked, if_pos links]
    obtain ⟨lost, exploring, -⟩ := course.explores links
    exact (course.visited_perm links).nodup_iff.mp exploring.once
  | false => exact course.nodup_created links

theorem Course.opened_subperm (course : Course disk options (.begin threads first visited) trace walk) :
    trace.opened.Subperm (first :: trace.created disk options) := by
  obtain ⟨lost, made, -⟩ := course.made
  rw [List.append_assoc] at made
  exact (List.sublist_append_left _ _).subperm.trans made.symm.subperm

/-! ### What jobs are made for -/

/-- A name in the directory of a job leads to a directory that a walk goes on into. -/
structure Leads (disk : Disk) (options : Options) (job : Job) (name : String) (place : Place) : Prop where
  listed : name ∈ listedNames disk job
  admitted : admits options name = true
  followed : isLinkAt disk (job.place ++ [name]) = true → options.followLinks = true
  isDir : target disk job name = .ok (some (place, .directory))
  kept : ignored (belowOf job name) true (scopesAt disk options job) = false
  followable : Followable disk options (job.path.child name)

theorem leads_iff {place : Place} :
    (∃ name, Leads disk options job name place) ↔ ∃ child ∈ subjobs disk options job, child.place = place := by
  constructor
  · rintro ⟨name, listed, admitted, followed, isDir, kept, followable⟩
    refine ⟨_, mem_subjobs.mpr ⟨name, listed, mem_childJobs.mpr
      ⟨admitted, ?_, place, isDir, kept, followable, rfl⟩⟩, rfl⟩
    cases link : isLinkAt disk (job.place ++ [name]) with
    | false => rfl
    | true => simp [followed link]
  · rintro ⟨child, inside, rfl⟩
    obtain ⟨name, listed, given⟩ := mem_subjobs.mp inside
    obtain ⟨admitted, followed, place, isDir, kept, followable, rfl⟩ := mem_childJobs.mp given
    exact ⟨name, listed, admitted, fun link => by simpa [link] using followed, isDir, kept, followable⟩

theorem Leads.unlinked {place : Place} (links : options.followLinks = false)
    (leads : Leads disk options job name place) :
    place = job.place ++ [name] ∧ isLinkAt disk (job.place ++ [name]) = false := by
  have plain : isLinkAt disk (job.place ++ [name]) = false := by
    by_contra link
    rw [leads.followed (by simpa using link)] at links
    cases links
  obtain ⟨item, held⟩ :=
    Option.isSome_iff_exists.mp (Disk.mem_namesIn_iff_item?.mp (listedNames_subset leads.listed))
  have noLink : ∀ goal, item ≠ .link goal := by
    rintro goal rfl
    simp [isLinkAt, held] at plain
  have isDir := leads.isDir
  rw [target_eq held noLink] at isDir
  cases isDir
  exact ⟨rfl, plain⟩

/-- The account of the jobs that a walk has made, when it has opened some of them, has still to meet others in
its listings, and has marked some places as visited. -/
structure Accounts (disk : Disk) (options : Options) (first : Job) (made opened unlisted : List Job)
    (visited : List Place) : Prop where
  few : made.length ≤ disk.items.length + 1
  once : (made.map Job.place).Nodup
  begun : first ∈ made
  among : opened.Subperm made
  marked : options.followLinks = true → visited.Perm (made.map Job.place)
  found : ∀ job ∈ made, job = first ∨ ∃ parent ∈ opened, ∃ name, Leads disk options parent name job.place
  unlinked : options.followLinks = false → ∀ job ∈ made, job = first ∨
    ∃ parent ∈ opened, ∃ name, job.place = parent.place ++ [name] ∧ isLinkAt disk job.place = false
  entered : ∀ parent ∈ opened, ∀ name place, Leads disk options parent name place →
    place ∈ made.map Job.place ∨ place ∈ unlisted.map Job.place

theorem accounts_of {made opened unlisted : List Job} (isDir : disk.isDirectoryAt first.place = true)
    (once : (made.map Job.place).Nodup) (begun : first ∈ made)
    (among : opened.Subperm made) (marked : options.followLinks = true → visited.Perm (made.map Job.place))
    (found : ∀ job ∈ made, job = first ∨ ∃ parent ∈ opened, job ∈ subjobs disk options parent)
    (listed : ∀ parent ∈ opened, ∀ child ∈ subjobs disk options parent,
      child.place ∈ made.map Job.place ∨ child ∈ unlisted) :
    Accounts disk options first made opened unlisted visited := by
  have led : ∀ job ∈ made,
      job = first ∨ ∃ parent ∈ opened, ∃ name, Leads disk options parent name job.place := by
    intro job member
    refine (found job member).imp_right fun ⟨parent, isOpen, inside⟩ => ?_
    exact ⟨parent, isOpen, leads_iff.mpr ⟨job, inside, rfl⟩⟩
  refine ⟨?_, once, begun, among, marked, led, fun links job member => ?_, ?_⟩
  · have directories : ∀ place ∈ made.map Job.place, disk.isDirectoryAt place = true := by
      intro place member
      obtain ⟨job, made, rfl⟩ := List.mem_map.mp member
      rcases found job made with rfl | ⟨parent, -, inside⟩
      · exact isDir
      · exact isDirectoryAt_of_mem_subjobs inside
    simpa using length_le_of_directories once directories
  · refine (led job member).imp_right fun ⟨parent, isOpen, name, leads⟩ => ?_
    obtain ⟨below, plain⟩ := leads.unlinked links
    exact ⟨parent, isOpen, name, below, below ▸ plain⟩
  · intro parent isOpen name place leads
    obtain ⟨child, inside, rfl⟩ := leads_iff.mp ⟨name, leads⟩
    exact (listed parent isOpen child inside).imp_right fun still => List.mem_map_of_mem still

theorem Exploring.comes_from {opened waiting unlisted : List Job}
    (exploring : Exploring disk options first opened waiting unlisted visited)
    (member : job ∈ opened ++ waiting) :
    job = first ∨ ∃ parent ∈ opened, job ∈ subjobs disk options parent := by
  obtain ⟨above, among, trail⟩ := exploring.found job member
  cases trail with
  | start => exact .inl rfl
  | down _ inside _ => exact .inr ⟨_, among List.mem_cons_self, inside⟩

section

variable {opened stack : List Job} {seen : List Place}

theorem Scans.made (links : options.followLinks = false)
    (scans : Scans disk options first visited opened stack seen) :
    (opened ++ stack).Perm (first :: opened.flatMap (subjobs disk options)) := by
  classical
  induction scans with
  | start => exact List.Perm.refl _
  | @pop opened rest job seen _ ih =>
    rw [(expand_eq links disk job seen).1]
    rw [List.perm_iff_count] at ih ⊢
    intro other
    have before := ih other
    simp only [List.flatMap_append, List.flatMap_singleton, List.count_append, List.count_cons, List.count_nil]
      at before ⊢
    omega

theorem Scans.reached (links : options.followLinks = false)
    (scans : Scans disk options first visited opened stack seen) :
    Walk.reached disk options [first] = opened ++ Walk.reached disk options stack := by
  induction scans with
  | start => rfl
  | @pop opened rest job seen _ ih =>
    rw [ih, (expand_eq links disk job seen).1, reached_cons links]
    simp

theorem Scans.once (links : options.followLinks = false)
    (scans : Scans disk options first visited opened stack seen) : ((opened ++ stack).map Job.place).Nodup := by
  have all := nodup_reached links disk (List.pairwise_singleton Apart first)
  rw [scans.reached links,
    (((reached_perm_opened links disk stack).append_left opened).map Job.place).nodup_iff, ← List.append_assoc,
    List.map_append] at all
  exact all.of_append_left

theorem Scans.comes_from (begins : Begins disk options first visited)
    (scans : Scans disk options first visited opened stack seen) (member : job ∈ opened ++ stack) :
    job = first ∨ ∃ parent ∈ opened, job ∈ subjobs disk options parent := by
  cases links : options.followLinks with
  | true =>
    obtain rfl : visited = [first.place] := by rw [begins.marked, if_pos links]
    exact (scans.explores links).comes_from member
  | false =>
    rcases List.mem_cons.mp ((scans.made links).mem_iff.mp member) with rfl | below
    · exact .inl rfl
    · exact .inr (List.mem_flatMap.mp below)

theorem Scans.accounts (begins : Begins disk options first visited)
    (scans : Scans disk options first visited opened stack seen) :
    Accounts disk options first (opened ++ stack) opened [] seen := by
  have among : opened.Subperm (opened ++ stack) := (List.sublist_append_left _ _).subperm
  have found := fun job (member : job ∈ opened ++ stack) => scans.comes_from begins member
  cases links : options.followLinks with
  | true =>
    obtain rfl : visited = [first.place] := by rw [begins.marked, if_pos links]
    have exploring := scans.explores links
    refine accounts_of begins.isDir (exploring.entered.nodup_iff.mp exploring.once) exploring.begun among
      (fun _ => exploring.entered) found ?_
    intro parent isOpen child inside
    exact (exploring.listed parent isOpen child inside).imp_left exploring.entered.mem_iff.mp
  | false =>
    have made := scans.made links
    refine accounts_of begins.isDir (scans.once links) (made.mem_iff.mpr List.mem_cons_self) among
      (fun follows => by simp [links] at follows) found ?_
    intro parent isOpen child inside
    have below := List.mem_flatMap.mpr ⟨parent, isOpen, inside⟩
    exact .inl (List.mem_map_of_mem (made.mem_iff.mpr (List.mem_cons_of_mem _ below)))

end

theorem Course.accounts (begins : Begins disk options first visited)
    (course : Course disk options (.begin threads first visited) trace walk) :
    Accounts disk options first (first :: trace.created disk options) trace.opened (walk.unlisted disk options)
      walk.visited := by
  have found : ∀ job ∈ first :: trace.created disk options,
      job = first ∨ ∃ parent ∈ trace.opened, job ∈ subjobs disk options parent := by
    intro job member
    refine (List.mem_cons.mp member).imp_right fun made => ?_
    exact List.mem_flatMap.mp (course.created_subset made)
  have begun : first ∈ first :: trace.created disk options := List.mem_cons_self
  cases links : options.followLinks with
  | true =>
    obtain rfl : visited = [first.place] := by rw [begins.marked, if_pos links]
    have marked := course.visited_perm links
    obtain ⟨lost, exploring, -⟩ := course.explores links
    refine accounts_of begins.isDir (course.once begins) begun course.opened_subperm
      (fun _ => marked) found ?_
    intro parent isOpen child inside
    exact (exploring.listed parent isOpen child inside).imp_left marked.mem_iff.mp
  | false =>
    refine accounts_of begins.isDir (course.once begins) begun course.opened_subperm
      (fun follows => by simp [links] at follows) found ?_
    intro parent isOpen child inside
    have below := List.mem_flatMap.mpr ⟨parent, isOpen, inside⟩
    rw [course.met.mem_iff, ← trace.created_of_noLinks links disk, List.mem_append] at below
    exact below.imp_left fun made => List.mem_map_of_mem (List.mem_cons_of_mem _ made)

end SyntaxTally.Walk
