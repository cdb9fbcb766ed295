import SyntaxTally.Proofs.Files.Way

/-!
# What a directory gives

Each name in a directory adds what it gives to the entries of the others, whatever was visited before, and to
the jobs what was not visited; when links are not followed, nothing counts as visited. A name that is no link gives
a job if it is an admitted directory that is not ignored, and an entry if it is such a file. The path of a job leads
to the place of the job, if it leads anywhere (`Located.placeOf_eq_ok`).
-/
namespace SyntaxTally.Walk

open Files Ignore

/-- What a name of a directory gives by itself. -/
def childFound (disk : Disk) (options : Options) (job : Job) (scopes : List Scope) (name : String) :
    Expansion :=
  addChild disk options job scopes ⟨[], [], [], []⟩ name

def childJobs (disk : Disk) (options : Options) (job : Job) (scopes : List Scope) (name : String) :
    List Job :=
  (childFound disk options job scopes name).jobs

def childEntries (disk : Disk) (options : Options) (job : Job) (scopes : List Scope) (name : String) :
    List Entry :=
  (childFound disk options job scopes name).entries

/-- The scopes for what is in the directory of a job. -/
def scopesAt (disk : Disk) (options : Options) (job : Job) : List Scope :=
  scopesIn options job (readRules disk job.path).1

/-- The jobs for the directories directly in the directory of a job. -/
def subjobs (disk : Disk) (options : Options) (job : Job) : List Job :=
  (listedNames disk job).flatMap (childJobs disk options job (scopesAt disk options job))

/-- The entries found directly in the directory of a job. -/
def ownEntries (disk : Disk) (options : Options) (job : Job) : List Entry :=
  (readRules disk job.path).2 ++ barredEntry disk job ++
    (listedNames disk job).flatMap (childEntries disk options job (scopesAt disk options job))

variable {disk : Disk} {options : Options} {job : Job} {scopes : List Scope}

/-! ### Name by name -/

theorem addJob_entries (disk : Disk) (options : Options) (found : Expansion) (job : Job) :
    (addJob disk options found job).entries = found.entries ++ (addJob disk options ⟨[], [], [], []⟩ job).entries := by
  unfold addJob
  split
  · split
    · rfl
    · split <;> simp
  · simp

theorem addChild_entries (disk : Disk) (options : Options) (job : Job) (scopes : List Scope)
    (found : Expansion) (name : String) :
    (addChild disk options job scopes found name).entries =
      found.entries ++ childEntries disk options job scopes name := by
  unfold childEntries childFound addChild
  dsimp only
  split
  · simp
  split
  · simp
  split
  · rfl
  · split
    · simp
    · exact addJob_entries ..
  · split <;> simp
  · simp

theorem addChild_eq (links : options.followLinks = false) (disk : Disk) (job : Job) (scopes : List Scope)
    (found : Expansion) (name : String) :
    (addChild disk options job scopes found name).jobs =
      found.jobs ++ childJobs disk options job scopes name ∧
    (addChild disk options job scopes found name).visited = found.visited := by
  unfold childJobs childFound addChild addJob
  simp only [links, Bool.false_eq_true, if_false]
  split
  · simp
  split
  · simp
  split
  · simp
  · split <;> simp
  · split <;> simp
  · simp

theorem foldl_addChild_entries (disk : Disk) (options : Options) (job : Job) (scopes : List Scope)
    (names : List String) (found : Expansion) :
    (names.foldl (addChild disk options job scopes) found).entries =
      found.entries ++ names.flatMap (childEntries disk options job scopes) := by
  induction names generalizing found with
  | nil => simp
  | cons name rest ih =>
    rw [List.foldl_cons, ih, addChild_entries]
    simp

theorem foldl_addChild (links : options.followLinks = false) (disk : Disk) (job : Job) (scopes : List Scope)
    (names : List String) (found : Expansion) :
    (names.foldl (addChild disk options job scopes) found).jobs =
      found.jobs ++ names.flatMap (childJobs disk options job scopes) ∧
    (names.foldl (addChild disk options job scopes) found).visited = found.visited := by
  induction names generalizing found with
  | nil => simp
  | cons name rest ih =>
    obtain ⟨jobs, visited⟩ := ih (addChild disk options job scopes found name)
    obtain ⟨moreJobs, sameVisited⟩ := addChild_eq links disk job scopes found name
    rw [List.foldl_cons, jobs, visited, moreJobs, sameVisited]
    simp

theorem expand_entries (disk : Disk) (options : Options) (job : Job) (visited : List Place) :
    (expand disk options job visited).entries = ownEntries disk options job :=
  foldl_addChild_entries disk options job (scopesAt disk options job) (listedNames disk job)
    ⟨[], (readRules disk job.path).2 ++ barredEntry disk job, [], visited⟩

/-- Without links an expansion does not depend on what was visited. -/
theorem expand_eq (links : options.followLinks = false) (disk : Disk) (job : Job) (visited : List Place) :
    (expand disk options job visited).jobs = subjobs disk options job ∧
    (expand disk options job visited).visited = visited :=
  foldl_addChild links disk job (scopesAt disk options job) (listedNames disk job)
    ⟨[], (readRules disk job.path).2 ++ barredEntry disk job, [], visited⟩

/-! ### Names when links are followed -/

/-- What of the directories of a name was not entered yet. -/
def freshJobs (visited : List Place) (jobs : List Job) : List Job :=
  jobs.filter fun job => !visited.contains job.place

theorem addJob_fresh (links : options.followLinks = true) (disk : Disk) (found : Expansion) (job : Job) :
    (addJob disk options found job).jobs =
      found.jobs ++ freshJobs found.visited (addJob disk options ⟨[], [], [], []⟩ job).jobs ∧
    (addJob disk options found job).visited =
      (freshJobs found.visited (addJob disk options ⟨[], [], [], []⟩ job).jobs).map Job.place ++ found.visited := by
  unfold freshJobs addJob
  simp only [links, if_true]
  split
  · simp
  · cases met : found.visited.contains job.place <;> simp_all

theorem addChild_fresh (links : options.followLinks = true) (disk : Disk) (job : Job) (scopes : List Scope)
    (found : Expansion) (name : String) :
    (addChild disk options job scopes found name).jobs =
      found.jobs ++ freshJobs found.visited (childJobs disk options job scopes name) ∧
    (addChild disk options job scopes found name).visited =
      (freshJobs found.visited (childJobs disk options job scopes name)).map Job.place ++ found.visited := by
  have none : freshJobs found.visited [] = [] := rfl
  unfold childJobs childFound addChild
  dsimp only
  split
  · simp [none]
  split
  · simp [none]
  split
  · simp [none]
  · split
    · simp [none]
    · exact addJob_fresh links ..
  · split <;> simp [none]
  · simp [none]

theorem length_addJob_le (disk : Disk) (options : Options) (job : Job) :
    (addJob disk options ⟨[], [], [], []⟩ job).jobs.length ≤ 1 := by
  unfold addJob
  split
  · split <;> simp
  · simp

theorem length_childJobs_le (disk : Disk) (options : Options) (job : Job) (scopes : List Scope)
    (name : String) : (childJobs disk options job scopes name).length ≤ 1 := by
  unfold childJobs childFound addChild
  dsimp only
  split
  · simp
  split
  · simp
  split
  · simp
  · split
    · simp
    · exact length_addJob_le ..
  · split <;> simp
  · simp

/-! ### Ignore files -/

theorem isName_of_ignoreFile {name : String} (listed : name ∈ ignoreFileNames) : IsName name := by
  simp only [ignoreFileNames, List.mem_cons, List.not_mem_nil, or_false] at listed
  rcases listed with rfl | rfl <;> decide

theorem readIgnoreFile_congr {left right : Disk} {file : Path} (same : left.readBytes file = right.readBytes file) :
    readIgnoreFile left file = readIgnoreFile right file := by
  rw [readIgnoreFile, readIgnoreFile, Disk.readText, Disk.readText, same]

theorem readIgnoreFile_of_missing {file : Path} (missing : disk.readBytes file = .error .missing) :
    readIgnoreFile disk file = ([], []) := by
  rw [readIgnoreFile, Disk.readText, missing]
  rfl

theorem readIgnoreFile_of_error {file : Path} {fault : Fault} (fails : disk.readBytes file = .error fault) :
    (readIgnoreFile disk file).1 = [] := by
  rw [readIgnoreFile, Disk.readText, fails, Disk.textOf]
  cases fault <;> rfl

theorem readIgnoreFile_failures (disk : Disk) (file : Path) :
    (readIgnoreFile disk file).2 = [] ∨ ∃ fault, (readIgnoreFile disk file).2 = [.failure file fault] := by
  unfold readIgnoreFile
  split
  · exact .inl rfl
  · exact .inr ⟨_, rfl⟩
  · exact .inl rfl

/-! ### Jobs that a name gives -/

variable {child : Job} {name : String}

/-- The path can be followed, if a walk asks for that. -/
def Followable (disk : Disk) (options : Options) (path : Path) : Prop :=
  options.followLinks = true → ∃ place, disk.placeOf true path = .ok place

theorem mem_addJob {other : Job} : other ∈ (addJob disk options ⟨[], [], [], []⟩ job).jobs ↔
    Followable disk options job.path ∧ other = job := by
  unfold addJob Followable
  cases options.followLinks with
  | false => simp
  | true => cases disk.placeOf true job.path <;> simp

theorem mem_childJobs : child ∈ childJobs disk options job scopes name ↔
    admits options name = true ∧ (isLinkAt disk (job.place ++ [name]) && !options.followLinks) = false ∧
      ∃ place, target disk job name = .ok (some (place, .directory)) ∧
        ignored (belowOf job name) true scopes = false ∧ Followable disk options (job.path.child name) ∧
        child = { path := job.path.child name, place, below := belowOf job name, scopes } := by
  unfold childJobs childFound addChild
  dsimp only
  split
  · simp_all
  split
  · simp_all
  split
  · simp_all
  · split
    · simp_all
    · simp_all [mem_addJob]
  · split <;> simp_all
  · simp_all

theorem mem_subjobs : child ∈ subjobs disk options job ↔
    ∃ name ∈ listedNames disk job, child ∈ childJobs disk options job (scopesAt disk options job) name :=
  List.mem_flatMap

theorem target_cases {found : Place} {item : Item} (leads : target disk job name = .ok (some (found, item))) :
    disk.lookup (job.path.child name) = .ok (found, item) ∨
      found = job.place ++ [name] ∧ disk.item? (job.place ++ [name]) = some item := by
  unfold target at leads
  split at leads
  · split at leads
    next reached =>
      obtain rfl := Option.some.inj (Except.ok.inj leads)
      exact .inl reached
    next => cases leads
    next => cases leads
  · right
    obtain ⟨held, is, same⟩ := Option.map_eq_some_iff.mp (Except.ok.inj leads)
    cases same
    exact ⟨rfl, is⟩

theorem item?_of_target {found : Place} {item : Item} (leads : target disk job name = .ok (some (found, item))) :
    disk.item? found = some item := by
  rcases target_cases leads with reached | ⟨rfl, held⟩
  · exact (Disk.lookup_eq_ok reached).2
  · exact held

theorem isDirectoryAt_of_mem_subjobs (inside : child ∈ subjobs disk options job) :
    disk.isDirectoryAt child.place = true := by
  obtain ⟨name, -, given⟩ := mem_subjobs.mp inside
  obtain ⟨-, -, place, leads, -, -, rfl⟩ := mem_childJobs.mp given
  simp [Disk.isDirectoryAt, item?_of_target leads]

/-! ### Where the path of a job leads -/

/-- The path of a job goes on from where a path leads, through directories down to the place of the job. -/
def Located (disk : Disk) (job : Job) : Prop :=
  ∃ root above parts, disk.Reaches root above parts ∧ job.path = root.under parts ∧ job.place = above ++ parts

namespace Located

theorem of_lookup (found : disk.lookup job.path = .ok (job.place, .directory)) : Located disk job := by
  obtain ⟨leads, isDir⟩ := Disk.lookup_eq_ok found
  exact ⟨job.path, job.place, [], ⟨leads, by rwa [List.append_nil]⟩, by simp [Path.under], by simp⟩

/-- A job that an expansion gives is located if the expanded one is. -/
theorem subjob (located : Located disk job) (inside : child ∈ subjobs disk options job) : Located disk child := by
  obtain ⟨name, -, given⟩ := mem_subjobs.mp inside
  obtain ⟨-, -, place, leads, -, -, rfl⟩ := mem_childJobs.mp given
  rcases target_cases leads with found | ⟨rfl, isDir⟩
  · exact of_lookup found
  · obtain ⟨root, above, parts, reaches, path, place⟩ := located
    rw [place, List.append_assoc] at isDir
    refine ⟨root, above, parts ++ [name], ⟨reaches.leads, isDir⟩, ?_, ?_⟩
    · simp [path, Path.child, Path.under]
    · rw [place, List.append_assoc]

/-- If the path of a job leads anywhere, it leads to the place of the job. -/
theorem placeOf_eq_ok {place : Place} (located : Located disk job) (leads : disk.placeOf true job.path = .ok place) :
    place = job.place := by
  obtain ⟨root, above, parts, reaches, path, lies⟩ := located
  rw [path] at leads
  rw [reaches.placeOf_eq_ok leads, lies]

end Located

/-! ### Names without links -/

def isFileAt (disk : Disk) (place : Place) : Bool :=
  match disk.item? place with
  | some (.file _) => true
  | _ => false

/-- The job for a directory that is directly in the directory of another job. -/
def childJob (disk : Disk) (options : Options) (job : Job) (name : String) : Job where
  path := job.path.child name
  place := job.place ++ [name]
  below := belowOf job name
  scopes := scopesAt disk options job

theorem target_eq {item : Item} (found : disk.item? (job.place ++ [name]) = some item)
    (plain : ∀ target, item ≠ .link target) :
    target disk job name = .ok (some (job.place ++ [name], item)) := by
  have noLink : isLinkAt disk (job.place ++ [name]) = false := by
    cases item <;> simp_all [isLinkAt]
  simp [target, noLink, found]

theorem childFound_eq (links : options.followLinks = false)
    (listed : name ∈ disk.namesIn job.place) :
    childJobs disk options job scopes name =
      (if admits options name && disk.isDirectoryAt (job.place ++ [name]) &&
          !ignored (belowOf job name) true scopes
        then [{ childJob disk options job name with scopes }] else []) ∧
    childEntries disk options job scopes name =
      if admits options name && isFileAt disk (job.place ++ [name]) &&
          !ignored (belowOf job name) false scopes
        then [.file (job.path.child name)] else [] := by
  obtain ⟨item, found⟩ := Option.isSome_iff_exists.mp (Disk.mem_namesIn_iff_item?.mp listed)
  unfold childJobs childEntries childFound addChild addJob
  cases admitted : admits options name with
  | false => simp
  | true =>
    cases item with
    | link target => simp [links, isLinkAt, Disk.isDirectoryAt, isFileAt, found]
    | socket => simp [isLinkAt, Disk.isDirectoryAt, isFileAt, found, target_eq found]
    | file bytes =>
      simp only [isLinkAt, Disk.isDirectoryAt, isFileAt, found,
        target_eq found (fun _ => Item.noConfusion)]
      cases ignored (belowOf job name) false scopes <;> simp
    | directory =>
      simp only [links, isLinkAt, Disk.isDirectoryAt, isFileAt, found,
        target_eq found (fun _ => Item.noConfusion)]
      cases ignored (belowOf job name) true scopes <;> simp [childJob]

/-- The names of the directories that the walk goes on into. -/
def directoryNames (disk : Disk) (options : Options) (job : Job) : List String :=
  (listedNames disk job).filter fun name =>
    admits options name && disk.isDirectoryAt (job.place ++ [name]) &&
    !ignored (belowOf job name) true (scopesAt disk options job)

/-- The names of the files that the walk hands out. -/
def fileNames (disk : Disk) (options : Options) (job : Job) : List String :=
  (listedNames disk job).filter fun name => admits options name && isFileAt disk (job.place ++ [name]) &&
    !ignored (belowOf job name) false (scopesAt disk options job)

theorem listedNames_subset (listed : name ∈ listedNames disk job) :
    name ∈ disk.namesIn job.place := by
  unfold listedNames at listed
  split at listed
  · cases listed
  · exact listed

theorem flatMap_ite {α β : Type} (items : List α) (kept : α → Bool) (give : α → β) :
    (items.flatMap fun item => if kept item then [give item] else []) = (items.filter kept).map give := by
  induction items with
  | nil => rfl
  | cons item rest ih => by_cases keep : kept item <;> simp [keep, ih]

theorem subjobs_eq (links : options.followLinks = false) (job : Job) :
    subjobs disk options job = (directoryNames disk options job).map (childJob disk options job) := by
  rw [directoryNames, ← flatMap_ite, subjobs]
  refine List.flatMap_congr fun name listed => ?_
  exact (childFound_eq links (listedNames_subset listed)).1

theorem ownEntries_eq (links : options.followLinks = false) (job : Job) :
    ownEntries disk options job = (readRules disk job.path).2 ++ barredEntry disk job ++
      (fileNames disk options job).map fun name => .file (job.path.child name) := by
  rw [fileNames, ← flatMap_ite, ownEntries]
  congr 1
  refine List.flatMap_congr fun name listed => ?_
  exact (childFound_eq links (listedNames_subset listed)).2

/-! ### The order of the names -/

theorem pairwise_listedNames (disk : Disk) (job : Job) :
    (listedNames disk job).Pairwise (· < ·) := by
  unfold listedNames
  split
  · exact List.Pairwise.nil
  · exact disk.pairwise_namesIn job.place

theorem nodup_listedNames (disk : Disk) (job : Job) : (listedNames disk job).Nodup :=
  (pairwise_listedNames disk job).imp fun below => ne_of_lt below

end SyntaxTally.Walk
