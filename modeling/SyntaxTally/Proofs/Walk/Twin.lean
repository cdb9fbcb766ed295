import SyntaxTally.Proofs.Walk.Account

/-!
# Scans in lockstep

Two scans, each with a disk and options of its own, whose jobs are for the same directories and whose scopes
decide alike about every path. As long as the names in these directories lead to the same on both disks but for
what is in the files, both scans hand out the same (`scanJobs_twin`).
-/
namespace SyntaxTally.Walk

open Files Ignore

/-- The same rule decides about each path. -/
def Agree (left right : List Scope) : Prop :=
  ∀ path isDir, (left.flatMap (·.matching path isDir)).getLast? = (right.flatMap (·.matching path isDir)).getLast?

structure Twin (left right : Job) : Prop where
  path : right.path = left.path
  place : right.place = left.place
  below : right.below = left.below
  scopes : Agree left.scopes right.scopes

structure TwinFound (left right : Expansion) : Prop where
  jobs : List.Forall₂ Twin left.jobs right.jobs
  entries : right.entries = left.entries
  logs : right.logs = left.logs
  visited : right.visited = left.visited

/-- What a name leads to is the same but for what is in a file. -/
def SameTarget (left right : Except Fault (Option (Place × Item))) : Prop :=
  right = left ∨ ∃ place before after, left = .ok (some (place, .file before)) ∧ right = .ok (some (place, .file after))

structure SameChoice (left right : Options) : Prop where
  followLinks : right.followLinks = left.followLinks
  hidden : right.hidden = left.hidden

variable {disk other : Disk} {options others : Options} {job twin first : Job} {scopes moreScopes : List Scope}
  {found twinFound : Expansion} {name : String} {names : List String} {seen visited : List Place}
  {opened stack twins : List Job}

/-! ### Names -/

theorem Agree.refl (scopes : List Scope) : Agree scopes scopes := fun _ _ => rfl

theorem Agree.ignored (agree : Agree scopes moreScopes) (path : List Char) (isDir : Bool) :
    Ignore.ignored path isDir moreScopes = Ignore.ignored path isDir scopes := by
  rw [Ignore.ignored, Ignore.ignored, agree path isDir]

theorem addChild_of_unadmitted (unadmitted : admits options name = false) (disk : Disk) (job : Job)
    (scopes : List Scope) (found : Expansion) : addChild disk options job scopes found name = found := by
  simp [addChild, unadmitted]

theorem foldl_addChild_admitted (disk : Disk) (job : Job) (scopes : List Scope) (names : List String)
    (found : Expansion) :
    names.foldl (addChild disk options job scopes) found =
      (names.filter (admits options)).foldl (addChild disk options job scopes) found := by
  induction names generalizing found with
  | nil => rfl
  | cons name names ih =>
    cases admitted : admits options name with
    | true => rw [List.filter_cons_of_pos admitted, List.foldl_cons, List.foldl_cons, ih]
    | false =>
      rw [List.filter_cons_of_neg (by simp [admitted]), List.foldl_cons, addChild_of_unadmitted admitted, ih]

theorem SameChoice.admits (same : SameChoice options others) : Walk.admits others = Walk.admits options := by
  funext name
  rw [Walk.admits, Walk.admits, same.hidden]

/-- The two scans find the same behind a name. -/
structure SameName (disk other : Disk) (options : Options) (job : Job) (name : String) : Prop where
  isLink : isLinkAt other (job.place ++ [name]) = isLinkAt disk (job.place ++ [name])
  leads : (isLinkAt disk (job.place ++ [name]) && !options.followLinks) = false →
    SameTarget (target disk job name) (target other job name)
  arrives : ∀ place, target disk job name = .ok (some (place, .directory)) →
    other.placeOf true (job.path.child name) = disk.placeOf true (job.path.child name)

theorem Twin.target (alike : Twin job twin) (disk : Disk) : target disk twin name = target disk job name := by
  rw [Walk.target, Walk.target, alike.path, alike.place]

theorem addJob_twin (choice : SameChoice options others) (alike : Twin job twin)
    (arrives : other.placeOf true job.path = disk.placeOf true job.path) (sofar : TwinFound found twinFound) :
    TwinFound (addJob disk options found job) (addJob other others twinFound twin) := by
  obtain ⟨jobs, entries, logs, seen⟩ := sofar
  unfold addJob
  rw [choice.followLinks, alike.path, alike.place, arrives, seen]
  split
  · split
    · exact ⟨jobs, by rw [entries], logs, rfl⟩
    split
    · exact ⟨jobs, entries, by rw [logs], rfl⟩
    · exact ⟨List.rel_append jobs (.cons alike .nil), entries, logs, rfl⟩
  · exact ⟨List.rel_append jobs (.cons alike .nil), entries, logs, rfl⟩

theorem addChild_twin (choice : SameChoice options others) (alike : Twin job twin) (agree : Agree scopes moreScopes)
    (same : SameName disk other options job name) (sofar : TwinFound found twinFound) :
    TwinFound (addChild disk options job scopes found name) (addChild other others twin moreScopes twinFound name) := by
  obtain ⟨jobs, entries, logs, seen⟩ := sofar
  have below : belowOf twin name = belowOf job name := by rw [belowOf, belowOf, alike.below]
  unfold addChild
  dsimp only
  rw [choice.admits, choice.followLinks, alike.target, alike.place, alike.path, same.isLink, below]
  split
  · exact ⟨jobs, entries, logs, seen⟩
  split
  · exact ⟨jobs, entries, by rw [logs], seen⟩
  rename_i unlinked
  rcases same.leads (by simpa using unlinked) with equal | ⟨place, before, after, left, right⟩
  · rw [equal]
    cases leads : target disk job name with
    | error fault => exact ⟨jobs, by rw [entries], logs, seen⟩
    | ok goal =>
      rcases goal with _ | ⟨place, item⟩
      · exact ⟨jobs, entries, logs, seen⟩
      cases item with
      | link | socket => exact ⟨jobs, entries, logs, seen⟩
      | file bytes =>
        dsimp only
        rw [agree.ignored]
        split
        · exact ⟨jobs, entries, logs, seen⟩
        · exact ⟨jobs, by rw [entries], logs, seen⟩
      | directory =>
        dsimp only
        rw [agree.ignored]
        split
        · exact ⟨jobs, entries, logs, seen⟩
        · exact addJob_twin choice ⟨rfl, rfl, rfl, agree⟩ (same.arrives place leads) ⟨jobs, entries, logs, seen⟩
  · rw [left, right]
    dsimp only
    rw [agree.ignored]
    split
    · exact ⟨jobs, entries, logs, seen⟩
    · exact ⟨jobs, by rw [entries], logs, seen⟩

theorem foldl_addChild_twin (choice : SameChoice options others) (alike : Twin job twin)
    (agree : Agree scopes moreScopes) (same : ∀ name ∈ names, SameName disk other options job name)
    (sofar : TwinFound found twinFound) :
    TwinFound (names.foldl (addChild disk options job scopes) found)
      (names.foldl (addChild other others twin moreScopes) twinFound) := by
  induction names generalizing found twinFound with
  | nil => exact sofar
  | cons name names ih =>
    have first := addChild_twin choice alike agree (same name List.mem_cons_self) sofar
    exact ih (fun later member => same later (List.mem_cons_of_mem name member)) first

/-! ### Directories -/

/-- The two scans find the same in the directory of a job. -/
structure SameDirectory (disk other : Disk) (options others : Options) (job twin : Job) : Prop where
  failures : (readRules other job.path).2 = (readRules disk job.path).2
  agree : Agree (scopesAt disk options job) (scopesAt other others twin)
  barrier : other.barrier? job.path = disk.barrier? job.path
  listed : (listedNames other job).filter (admits options) = (listedNames disk job).filter (admits options)
  names : ∀ name ∈ listedNames disk job, admits options name = true → SameName disk other options job name

theorem expand_twin (choice : SameChoice options others) (alike : Twin job twin)
    (same : SameDirectory disk other options others job twin) (seen : List Place) :
    TwinFound (expand disk options job seen) (expand other others twin seen) := by
  have listed : (listedNames other twin).filter (admits others) = (listedNames disk job).filter (admits options) := by
    rw [choice.admits, ← same.listed, listedNames, listedNames, alike.path, alike.place]
  have begins : barredEntry other twin = barredEntry disk job := by
    rw [barredEntry, barredEntry, alike.path, same.barrier]
  have agree := same.agree
  unfold scopesAt at agree
  unfold expand
  dsimp only
  rw [foldl_addChild_admitted disk, foldl_addChild_admitted other, listed]
  refine foldl_addChild_twin choice alike agree (fun name member => ?_) ⟨.nil, ?_, rfl, rfl⟩
  · obtain ⟨present, admitted⟩ := List.mem_filter.mp member
    exact same.names name present admitted
  · rw [begins, alike.path, same.failures]

/-! ### Scans -/

/-- The scan of the root comes to expand the job. -/
def Expands (disk : Disk) (options : Options) (root : Path) (job : Job) : Prop :=
  ∃ first visited logs opened rest seen, start disk options root = .ok (.tree first visited logs) ∧
    Scans disk options first visited opened (job :: rest) seen

theorem belowOf_ne_nil (job : Job) (proper : name ≠ "") : belowOf job name ≠ [] := by
  unfold belowOf
  split
  · simpa using proper
  · simp

theorem Scans.located (located : Located disk first)
    (scans : Scans disk options first visited opened stack seen) : ∀ job ∈ opened ++ stack, Located disk job := by
  induction scans with
  | start => simpa using located
  | @pop opened rest job seen _ ih =>
    intro other member
    simp only [List.mem_append, List.mem_cons, List.not_mem_nil, or_false] at member
    rcases member with (before | rfl) | (child | after)
    · exact ih other (by simp [before])
    · exact ih other (by simp)
    · exact (ih job (by simp)).subjob (expand_jobs_subset disk options job seen child)
    · exact ih other (by simp [after])

theorem Expands.located {root : Path} (expands : Expands disk options root job) : Located disk job := by
  obtain ⟨first, visited, logs, opened, rest, seen, begins, scans⟩ := expands
  exact scans.located (Located.start begins) job (by simp)

/-- Each job of a scan but the first is for another directory, below the root. -/
theorem Expands.cases {root : Path} {logs : List Log.Record}
    (begins : start disk options root = .ok (.tree first visited logs)) (expands : Expands disk options root job) :
    job = first ∨ disk.item? job.place = some .directory ∧ job.place ≠ first.place ∧ job.below ≠ [] := by
  obtain ⟨other, marked, warnings, opened, rest, seen, starts, scans⟩ := expands
  cases begins.symm.trans starts
  have begun := begins_start begins
  have member : job ∈ opened ++ job :: rest := by simp
  by_cases same : job.place = first.place
  · have accounts := scans.accounts begun
    exact .inl (List.inj_on_of_nodup_map accounts.once member accounts.begun same)
  rcases scans.comes_from begun member with rfl | ⟨parent, -, inside⟩
  · exact .inl rfl
  obtain ⟨name, listed, given⟩ := mem_subjobs.mp inside
  obtain ⟨-, -, goal, leads, -, -, rfl⟩ := mem_childJobs.mp given
  obtain ⟨item, held⟩ := Option.isSome_iff_exists.mp (Disk.mem_namesIn_iff_item?.mp (listedNames_subset listed))
  exact .inr ⟨item?_of_target leads, same, belowOf_ne_nil parent (Disk.isName_of_item? held).1⟩

theorem scanJobs_twin (choice : SameChoice options others)
    (same : ∀ opened job rest seen twin, Scans disk options first visited opened (job :: rest) seen → Twin job twin →
      SameDirectory disk other options others job twin)
    (scans : Scans disk options first visited opened stack seen) (alike : List.Forall₂ Twin stack twins) (fuel : Nat) :
    scanJobs other others fuel twins seen = scanJobs disk options fuel stack seen := by
  induction fuel generalizing opened stack twins seen with
  | zero => rfl
  | succ fuel ih =>
    cases alike with
    | nil => rfl
    | @cons job twin rest twins alike others =>
      obtain ⟨jobs, entries, logs, visits⟩ := expand_twin choice alike (same _ _ _ _ _ scans alike) seen
      rw [scanJobs, scanJobs, entries, logs, visits, ih scans.pop (List.rel_append jobs others)]

/-- The loop of a scan is over when as many jobs as there can be are expanded. -/
theorem scanJobs_succ {most fuel : Nat}
    (bounded : ∀ opened stack seen, Scans disk options first visited opened stack seen →
      opened.length + stack.length ≤ most)
    (scans : Scans disk options first visited opened stack seen) (enough : most ≤ fuel + opened.length) :
    scanJobs disk options (fuel + 1) stack seen = scanJobs disk options fuel stack seen := by
  induction fuel generalizing opened stack seen with
  | zero =>
    have most := bounded opened stack seen scans
    obtain rfl : stack = [] := List.length_eq_zero_iff.mp (by omega)
    rfl
  | succ fuel ih =>
    cases stack with
    | nil => rfl
    | cons job rest =>
      have fewer : most ≤ fuel + (opened ++ [job]).length := by
        rw [List.length_append, List.length_singleton]
        omega
      rw [scanJobs, ih scans.pop fewer, ← scanJobs]

theorem scan_twin {root : Path} {logs : List Log.Record} (choice : SameChoice options others)
    (begins : start disk options root = .ok (.tree first visited logs))
    (alsoBegins : start other others root = .ok (.tree first visited logs))
    (size : other.items.length = disk.items.length ∨ other.items.length = disk.items.length + 1)
    (same : ∀ job twin, Expands disk options root job → Twin job twin →
      SameDirectory disk other options others job twin) :
    scan other others root = scan disk options root := by
  rw [scan, scan, begins, alsoBegins]
  have lockstep : ∀ fuel, scanJobs other others fuel [first] visited = scanJobs disk options fuel [first] visited :=
    scanJobs_twin choice (fun opened job rest seen twin scans => same job twin
      ⟨first, visited, logs, opened, rest, seen, begins, scans⟩) .start (.cons ⟨rfl, rfl, rfl, .refl _⟩ .nil)
  have bounded : ∀ opened stack seen, Scans disk options first visited opened stack seen →
      opened.length + stack.length ≤ disk.items.length + 1 := by
    intro opened stack seen scans
    simpa using (scans.accounts (begins_start begins)).few
  have ends : scanJobs disk options (enough disk + 1) [first] visited =
      scanJobs disk options (enough disk) [first] visited := scanJobs_succ bounded .start (by simp [enough])
  show Except.ok (⟨logs, []⟩ :: scanJobs other others (enough other) [first] visited) =
    .ok (⟨logs, []⟩ :: scanJobs disk options (enough disk) [first] visited)
  rw [lockstep]
  rcases size with equal | more
  · rw [enough, equal, ← enough]
  · rw [enough, more, Nat.add_right_comm, ← enough, ends]

end SyntaxTally.Walk
