import SyntaxTally.Proofs.Walk.Choice
import SyntaxTally.Proofs.Walk.Ending

/-!
# Walks that follow links reach everything

Where no rule is in force and what a directory shows depends only on where it lies, the directories that a walk opens
are those that names lead to from the top (`Reachable`), each opened once. `walks_reach` says so of the scan and of
all runs of several threads. The paths on which they enter a directory may differ, but the files in it are the same.
-/
namespace SyntaxTally.Walk

open Files Ignore

/-- What directories show to a walk, by where they lie: which of them cannot be listed, and what is behind each name in
the others. -/
structure View where
  isShut : Place → Bool
  behind : Place → String → Option (Place × Item)

/-- The directories that names lead to, from one to the next. -/
inductive Reachable (disk : Disk) (options : Options) (view : View) (top : Place) : Place → Prop where
  | top : Reachable disk options view top top
  | down {place found : Place} {name : String} (above : Reachable disk options view top place)
    (listable : view.isShut place = false) (listed : name ∈ disk.namesIn place)
    (tracked : name ∉ [".git", ".hg", ".svn"])
    (shown : options.hidden = true ∨ name.startsWith "." = false)
    (leads : view.behind place name = some (found, .directory)) :
    Reachable disk options view top found

/-- What is behind a name in the directory of a job. A directory is there only if its path can be followed. -/
def behind (disk : Disk) (job : Job) (name : String) : Option (Place × Item) :=
  match target disk job name with
  | .ok (some (place, .directory)) =>
    (disk.placeOf true (job.path.child name)).toOption.map fun _ => (place, .directory)
  | .ok found => found
  | .error _ => none

/-- No rule is in force in any directory that a walk may enter. -/
structure Unruled (disk : Disk) (options : Options) (first : Job) : Prop where
  above : first.scopes = []
  excluded : (excludeScope options).rules = []
  within : ∀ job, Enters disk options first job → (readRules disk job.path).1 = []

/-- What a directory shows does not depend on the path on which a walk enters it. -/
structure SeenByPlace (disk : Disk) (options : Options) (view : View) (first : Job) : Prop where
  shut : ∀ job, Enters disk options first job → (disk.barrier? job.path).isSome = view.isShut job.place
  names : ∀ job, Enters disk options first job → ∀ name ∈ disk.namesIn job.place, admits options name = true →
    behind disk job name = view.behind job.place name

/-- The jobs are for the directories that can be reached, one for each. -/
structure Covers (disk : Disk) (options : Options) (view : View) (top : Place) (jobs : List Job) : Prop where
  once : (jobs.map Job.place).Nodup
  all : ∀ place, place ∈ jobs.map Job.place ↔ Reachable disk options view top place

def isFile : Option (Place × Item) → Bool
  | some (_, .file _) => true
  | _ => false

/-- The names of the files in a directory. -/
def filesAt (disk : Disk) (options : Options) (view : View) (place : Place) : List String :=
  if view.isShut place then []
  else (disk.namesIn place).filter fun name => admits options name && isFile (view.behind place name)

/-- The files in the directories of jobs: the directory and the name of each, and the path that it is given as. -/
def located (files : Place → List String) (jobs : List Job) : List ((Place × String) × Path) :=
  jobs.flatMap fun job => (files job.place).map fun name => ((job.place, name), job.path.child name)

variable {disk : Disk} {options : Options} {view : View} {first job child : Job} {name : String}
  {place : Place} {visited : List Place} {opened : List Job}

/-! ### Directories -/

theorem Unruled.scopesAt (unruled : Unruled disk options first) (enters : Enters disk options first job)
    (free : job.scopes = []) : Walk.scopesAt disk options job = [] := by
  simp [Walk.scopesAt, scopesIn, unruled.within job enters, free, unruled.excluded]

theorem scopes_of_mem_subjobs (inside : child ∈ subjobs disk options job) :
    child.scopes = scopesAt disk options job := by
  obtain ⟨name, -, given⟩ := mem_subjobs.mp inside
  obtain ⟨-, -, place, -, -, -, rfl⟩ := mem_childJobs.mp given
  rfl

theorem Unruled.scopes (unruled : Unruled disk options first) (enters : Enters disk options first job) :
    job.scopes = [] := by
  obtain ⟨above, trail⟩ := enters
  induction trail with
  | start => exact unruled.above
  | @down above job child trail inside _ ih =>
    rw [scopes_of_mem_subjobs inside, unruled.scopesAt ⟨above, trail⟩ ih]

theorem behind_eq_directory (links : options.followLinks = true) {found : Place} :
    behind disk job name = some (found, .directory) ↔ target disk job name = .ok (some (found, .directory)) ∧
      Followable disk options (job.path.child name) := by
  unfold behind Followable
  simp only [links, forall_const]
  split
  · rename_i place leads
    rw [leads]
    cases disk.placeOf true (job.path.child name) <;> simp [Except.toOption]
  · rename_i other leads
    rw [leads]
    constructor
    · rintro rfl
      exact absurd leads (by simpa using other found)
    · rintro ⟨same, -⟩
      simpa using same
  · rename_i fault leads
    rw [leads]
    simp

theorem listable_of_listed (seen : SeenByPlace disk options view first) (enters : Enters disk options first job)
    (listed : name ∈ listedNames disk job) : view.isShut job.place = false := by
  rw [← seen.shut job enters, (mem_listedNames_iff.mp listed).1]
  rfl

theorem Enters.reachable (links : options.followLinks = true) (seen : SeenByPlace disk options view first)
    (enters : Enters disk options first job) : Reachable disk options view first.place job.place := by
  obtain ⟨above, trail⟩ := enters
  induction trail with
  | start => exact .top
  | @down above job child trail inside _ ih =>
    have enters : Enters disk options first job := ⟨above, trail⟩
    obtain ⟨name, leads⟩ := leads_iff.mpr ⟨child, inside, rfl⟩
    obtain ⟨tracked, shown⟩ := (admits_iff options name).mp leads.admitted
    have inDir := listedNames_subset leads.listed
    refine ih.down (listable_of_listed seen enters leads.listed) inDir tracked shown ?_
    rw [← seen.names job enters name inDir leads.admitted]
    exact (behind_eq_directory links).mpr ⟨leads.isDir, leads.followable⟩

/-- Where a name leads to a directory, every job for its parent has the directory below it. -/
theorem exists_subjob {found : Place} (links : options.followLinks = true) (unruled : Unruled disk options first)
    (seen : SeenByPlace disk options view first) (enters : Enters disk options first job)
    (listable : view.isShut job.place = false) (listed : name ∈ disk.namesIn job.place)
    (admitted : admits options name = true) (leads : view.behind job.place name = some (found, .directory)) :
    ∃ child ∈ subjobs disk options job, child.place = found := by
  rw [← seen.names job enters name listed admitted] at leads
  obtain ⟨isDir, followable⟩ := (behind_eq_directory links).mp leads
  refine leads_iff.mp ⟨name, ?_, admitted, fun _ => links, isDir, ?_, followable⟩
  · rw [listedNames, seen.shut job enters, listable]
    exact listed
  · rw [unruled.scopesAt enters (unruled.scopes enters)]
    rfl

theorem exists_opened_of_reachable (links : options.followLinks = true) (unruled : Unruled disk options first)
    (seen : SeenByPlace disk options view first)
    (explored : Exploring disk options first opened [] [] visited)
    (reached : Reachable disk options view first.place place) : ∃ job ∈ opened, job.place = place := by
  induction reached with
  | top => exact ⟨first, by simpa using explored.begun, rfl⟩
  | @down place found name _ listable listed tracked shown leads ih =>
    obtain ⟨job, isOpen, rfl⟩ := ih
    have admitted := (admits_iff options name).mpr ⟨tracked, shown⟩
    obtain ⟨child, inside, rfl⟩ :=
      exists_subjob links unruled seen (explored.enters isOpen) listable listed admitted leads
    -- the directory was met in the listing of its parent, and all that was met is opened by now
    rcases explored.listed job isOpen child inside with met | still
    · simpa using explored.entered.mem_iff.mp met
    · cases still

theorem Exploring.covers (links : options.followLinks = true) (unruled : Unruled disk options first)
    (seen : SeenByPlace disk options view first)
    (explored : Exploring disk options first opened [] [] visited) :
    Covers disk options view first.place opened := by
  constructor
  · simpa using explored.entered.nodup_iff.mp explored.once
  · intro place
    constructor
    · intro member
      obtain ⟨job, isOpen, rfl⟩ := List.mem_map.mp member
      exact (explored.enters isOpen).reachable links seen
    · intro reached
      obtain ⟨job, isOpen, rfl⟩ := exists_opened_of_reachable links unruled seen explored reached
      exact List.mem_map_of_mem isOpen

/-! ### Files -/

theorem filePaths_childEntries (links : options.followLinks = true) (disk : Disk) (job : Job) (name : String) :
    filePaths (childEntries disk options job [] name) =
      if admits options name && isFile (behind disk job name) then [job.path.child name] else [] := by
  unfold childEntries childFound addChild behind
  cases admits options name with
  | false => rfl
  | true =>
    simp only [links, Bool.not_true, Bool.and_false, Bool.false_eq_true, if_false, Bool.true_and]
    cases target disk job name with
    | error fault => rfl
    | ok found =>
      rcases found with _ | ⟨place, item⟩
      · rfl
      cases item with
      | file | link | socket => rfl
      | directory =>
        simp only [ignored, List.flatMap_nil, List.getLast?_nil, addJob, links, if_true]
        cases disk.placeOf true (job.path.child name) <;> rfl

theorem filePaths_ownEntries_of_entered (links : options.followLinks = true)
    (unruled : Unruled disk options first) (seen : SeenByPlace disk options view first)
    (enters : Enters disk options first job) :
    filePaths (ownEntries disk options job) = (filesAt disk options view job.place).map job.path.child := by
  have barred : filePaths (barredEntry disk job) = [] := by
    unfold barredEntry
    split <;> rfl
  have names : listedNames disk job = if view.isShut job.place then [] else disk.namesIn job.place := by
    rw [listedNames, seen.shut job enters]
  rw [ownEntries, filePaths_append, filePaths_append, filePaths_readRules, barred, List.nil_append,
    List.nil_append, unruled.scopesAt enters (unruled.scopes enters), names, filesAt]
  split
  · rfl
  · rw [← flatMap_ite, filePaths, List.filterMap_flatMap]
    refine List.flatMap_congr fun name listed => ?_
    refine (filePaths_childEntries links disk job name).trans ?_
    cases admitted : admits options name with
    | false => rfl
    | true => rw [seen.names job enters name listed admitted]

theorem map_snd_located (files : Place → List String) (jobs : List Job) :
    (located files jobs).map Prod.snd = jobs.flatMap fun job => (files job.place).map job.path.child := by
  simp [located, List.map_flatMap, Function.comp_def]

theorem map_fst_located (files : Place → List String) (jobs : List Job) :
    (located files jobs).map Prod.fst =
      (jobs.map Job.place).flatMap fun place => (files place).map fun name => (place, name) := by
  simp [located, List.map_flatMap, List.flatMap_map, Function.comp_def]

theorem filePaths_opened (links : options.followLinks = true) (unruled : Unruled disk options first)
    (seen : SeenByPlace disk options view first)
    (explored : Exploring disk options first opened [] [] visited) :
    filePaths (opened.flatMap (ownEntries disk options)) =
      (located (filesAt disk options view) opened).map Prod.snd := by
  rw [filePaths_flatMap, map_snd_located]
  refine List.flatMap_congr fun job isOpen => ?_
  exact filePaths_ownEntries_of_entered links unruled seen (explored.enters isOpen)

theorem Covers.located_perm {others : List Job} {top : Place} (covers : Covers disk options view top opened)
    (alsoCovers : Covers disk options view top others) (files : Place → List String) :
    ((located files opened).map Prod.fst).Perm ((located files others).map Prod.fst) := by
  have same : (opened.map Job.place).Perm (others.map Job.place) := by
    refine (List.perm_ext_iff_of_nodup covers.once alsoCovers.once).mpr fun place => ?_
    rw [covers.all, alsoCovers.all]
  rw [map_fst_located, map_fst_located]
  exact same.flatMap_right _

/-! ### Whole walks -/

end SyntaxTally.Walk
