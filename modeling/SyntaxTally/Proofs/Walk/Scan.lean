import Mathlib.Algebra.GroupWithZero.Nat
import Mathlib.Logic.Relation
import SyntaxTally.Proofs.Walk.Expand
import SyntaxTally.Walk.Scan

/-!
# The depth-first scan

A scan of a tree expands each directory it reaches once, and its bound on the steps is never met: the items
below the jobs that are left become fewer with each expansion. `reached` is the list of these directories in
the order of the scan, and `scan_entries` says that the scan hands out their own entries in this order.
-/
namespace SyntaxTally.Walk

open Files Ignore

/-! ### The items below a place -/

def itemsBelow (disk : Disk) (place : Place) : Nat :=
  disk.items.countP fun entry => place.isPrefixOf entry.1 && place.length < entry.1.length

def weight (disk : Disk) (jobs : List Job) : Nat := (jobs.map fun job => itemsBelow disk job.place + 1).sum

theorem weight_nil (disk : Disk) : weight disk [] = 0 := rfl

theorem weight_cons (disk : Disk) (job : Job) (rest : List Job) :
    weight disk (job :: rest) = itemsBelow disk job.place + 1 + weight disk rest := by
  simp [weight]

theorem weight_append (disk : Disk) (jobs more : List Job) :
    weight disk (jobs ++ more) = weight disk jobs + weight disk more := by
  simp [weight]

theorem weight_singleton_le_enough (disk : Disk) (job : Job) : weight disk [job] ≤ enough disk := by
  have bound : itemsBelow disk job.place ≤ disk.items.length := List.countP_le_length
  rw [weight_cons, weight_nil, enough]
  omega

theorem name_of_prefixes {place target : Place} {left right : String} (ofLeft : place ++ [left] <+: target)
    (ofRight : place ++ [right] <+: target) : left = right := by
  have same : place ++ [left] = place ++ [right] :=
    (List.prefix_of_prefix_length_le ofLeft ofRight (by simp)).eq_of_length (by simp)
  simpa using same

/-- Each item below a place lies at or below at most one name there. -/
theorem countP_names_le {names : List String} (distinct : names.Nodup) (place target : Place) :
    names.countP (fun name => (place ++ [name]).isPrefixOf target) ≤
      if place.isPrefixOf target && place.length < target.length then 1 else 0 := by
  rw [List.countP_eq_length_filter]
  have kept := distinct.filter fun name => (place ++ [name]).isPrefixOf target
  have meant : ∀ name ∈ names.filter fun name => (place ++ [name]).isPrefixOf target,
      place ++ [name] <+: target :=
    fun name member => List.isPrefixOf_iff_prefix.mp (List.mem_filter.mp member).2
  generalize names.filter (fun name => (place ++ [name]).isPrefixOf target) = found at kept meant
  -- two names that both lead on to the target are the same, and it was listed once
  match found with
  | [] => simp
  | [name] =>
    have inside := meant name (by simp)
    have above : place <+: target := (List.prefix_append place [name]).trans inside
    have longer := inside.length_le
    simp only [List.length_append, List.length_singleton] at longer
    simp [above, show place.length < target.length by omega]
  | left :: right :: _ =>
    have same := name_of_prefixes (meant left (by simp)) (meant right (by simp))
    simp [same] at kept

theorem sum_countP_cons {α β : Type} (keys : List α) (holds : α → β → Bool) (item : β) (rest : List β) :
    (keys.map fun key => (item :: rest).countP (holds key)).sum =
      (keys.map fun key => rest.countP (holds key)).sum + keys.countP fun key => holds key item := by
  induction keys with
  | nil => rfl
  | cons key keys ih =>
    simp only [List.countP_cons] at ih ⊢
    simp only [List.map_cons, List.sum_cons]
    omega

theorem sum_countP_le {names : List String} (distinct : names.Nodup) (place : Place)
    (items : List (Place × Item)) :
    (names.map fun name => items.countP fun entry => (place ++ [name]).isPrefixOf entry.1).sum ≤
      items.countP fun entry => place.isPrefixOf entry.1 && place.length < entry.1.length := by
  induction items with
  | nil => simp
  | cons entry rest ih =>
    have one := countP_names_le distinct place entry.1
    rw [sum_countP_cons names fun name (entry : Place × Item) => (place ++ [name]).isPrefixOf entry.1,
      List.countP_cons]
    omega

/-- The item at a place lies at the place, but not below it. -/
theorem itemsBelow_lt {disk : Disk} {place : Place} {item : Item} (listed : (place, item) ∈ disk.items) :
    itemsBelow disk place + 1 ≤ disk.items.countP fun entry => place.isPrefixOf entry.1 := by
  obtain ⟨before, after, whole⟩ := List.append_of_mem listed
  have fewer : ∀ items : List (Place × Item),
      items.countP (fun entry => place.isPrefixOf entry.1 && place.length < entry.1.length) ≤
        items.countP fun entry => place.isPrefixOf entry.1 :=
    fun items => List.countP_mono_left fun entry _ both => (Bool.and_eq_true_iff.mp both).1
  have first := fewer before
  have last := fewer after
  simp only [itemsBelow, whole, List.countP_append, List.countP_cons, Nat.lt_irrefl, decide_false,
    Bool.and_false, List.isPrefixOf_iff_prefix.mpr (List.prefix_refl place)]
  simp
  omega

variable {disk : Disk} {options : Options}

theorem weight_childJobs_le {job : Job} {name : String} (links : options.followLinks = false) (scopes : List Scope)
    (listed : name ∈ listedNames disk job) :
    weight disk (childJobs disk options job scopes name) ≤
      disk.items.countP fun entry => (job.place ++ [name]).isPrefixOf entry.1 := by
  have inside := listedNames_subset listed
  obtain ⟨item, held⟩ := Disk.mem_namesIn.mp inside
  rw [(childFound_eq links inside).1]
  split
  · rw [weight_cons, weight_nil]
    exact itemsBelow_lt held
  · exact Nat.zero_le _

/-- An expansion leaves less to be done than there was. -/
theorem weight_subjobs_le (links : options.followLinks = false) (disk : Disk) (job : Job) :
    weight disk (subjobs disk options job) ≤ itemsBelow disk job.place := by
  have flat : ∀ names : List String, (∀ name ∈ names, name ∈ listedNames disk job) →
      weight disk (names.flatMap (childJobs disk options job (scopesAt disk options job))) ≤
        (names.map fun name => disk.items.countP fun entry =>
          (job.place ++ [name]).isPrefixOf entry.1).sum := by
    intro names listed
    induction names with
    | nil => simp [weight_nil]
    | cons name rest ih =>
      have first := weight_childJobs_le links (scopesAt disk options job) (listed name (by simp))
      have others := ih fun name member => listed name (by simp [member])
      rw [List.flatMap_cons, weight_append, List.map_cons, List.sum_cons]
      omega
  exact (flat _ fun _ member => member).trans
    (sum_countP_le (nodup_listedNames disk job) job.place disk.items)

/-! ### The directories that a scan reaches -/

/-- The jobs that so many steps of a scan expand. -/
def reachedIn (disk : Disk) (options : Options) : Nat → List Job → List Job
  | 0, _ => []
  | _ + 1, [] => []
  | fuel + 1, job :: rest => job :: reachedIn disk options fuel (subjobs disk options job ++ rest)

/-- All jobs that a scan of the given ones expands, in its order. -/
def reached (disk : Disk) (options : Options) (jobs : List Job) : List Job :=
  reachedIn disk options (weight disk jobs) jobs

theorem weight_expanded_lt (links : options.followLinks = false) (disk : Disk) (job : Job)
    (rest : List Job) :
    weight disk (subjobs disk options job ++ rest) < weight disk (job :: rest) := by
  have less := weight_subjobs_le links disk job
  rw [weight_append, weight_cons]
  omega

theorem reachedIn_eq (links : options.followLinks = false) {fuel : Nat}
    {jobs : List Job} (enough : weight disk jobs ≤ fuel) :
    reachedIn disk options fuel jobs = reached disk options jobs := by
  suffices same : ∀ (fuel other : Nat) (jobs : List Job),
      weight disk jobs ≤ fuel → weight disk jobs ≤ other →
      reachedIn disk options fuel jobs = reachedIn disk options other jobs from
    same _ _ _ enough (Nat.le_refl _)
  clear enough fuel jobs
  -- both bounds go down by one with each job, and the weight goes down at least as fast
  intro fuel
  induction fuel with
  | zero =>
    intro other jobs none _
    cases jobs with
    | nil => cases other <;> rfl
    | cons job rest => rw [weight_cons] at none; omega
  | succ fuel ih =>
    intro other jobs enough more
    cases jobs with
    | nil => cases other <;> rfl
    | cons job rest =>
      have less := weight_expanded_lt links disk job rest
      cases other with
      | zero => omega
      | succ other => rw [reachedIn, reachedIn, ih other _ (by omega) (by omega)]

theorem reached_nil : reached disk options [] = [] := rfl

theorem reached_cons (links : options.followLinks = false) (job : Job)
    (rest : List Job) :
    reached disk options (job :: rest) =
      job :: reached disk options (subjobs disk options job ++ rest) := by
  have less := weight_expanded_lt links disk job rest
  have positive : weight disk (job :: rest) = weight disk (job :: rest) - 1 + 1 := by omega
  rw [reached, positive, reachedIn, reachedIn_eq links (by omega)]

/-- A scan of jobs goes through all that the first of them reaches before it takes the next. -/
theorem reached_append (links : options.followLinks = false) (jobs more : List Job) :
    reached disk options (jobs ++ more) = reached disk options jobs ++ reached disk options more := by
  induction fuel : weight disk jobs using Nat.strongRecOn generalizing jobs with
  | ind fuel ih =>
    cases jobs with
    | nil => rfl
    | cons job rest =>
      have less := weight_expanded_lt links disk job rest
      rw [List.cons_append, reached_cons links, reached_cons links, ← List.append_assoc,
        ih _ (fuel ▸ less) _ rfl, List.cons_append]

theorem reached_eq_flatMap (links : options.followLinks = false) (jobs : List Job) :
    reached disk options jobs = jobs.flatMap fun job => reached disk options [job] := by
  induction jobs with
  | nil => rfl
  | cons job rest ih =>
    rw [List.flatMap_cons, ← ih, ← reached_append links]
    rfl

theorem scanJobs_entries (links : options.followLinks = false) {fuel : Nat}
    {jobs : List Job} (enough : weight disk jobs ≤ fuel) (visited : List Place) :
    (scanJobs disk options fuel jobs visited).map Batch.entries =
      (reached disk options jobs).map (ownEntries disk options) := by
  rw [← reachedIn_eq links enough]
  clear enough
  induction fuel generalizing jobs visited with
  | zero => rfl
  | succ fuel ih =>
    cases jobs with
    | nil => rfl
    | cons job rest =>
      simp only [scanJobs, reachedIn, List.map_cons, (expand_eq links disk job visited).1, expand_entries, ih]

theorem start_of_directory {root : Path} {place : Place} (options : Options)
    (found : disk.lookup root = .ok (place, .directory)) :
    start disk options root = (rootJob disk root place).map fun (job, logs) =>
      .tree job (if options.followLinks then [place] else []) logs := by
  rw [start, found]

/-- How the first job of a walk comes about. -/
theorem rootJob_eq_ok {root : Path} {place : Place} {job : Job} {logs : List Log.Record}
    (made : rootJob disk root place = .ok (job, logs)) :
    ∃ scopes, scopesAbove disk ⟨1, place⟩ = .ok (scopes, logs) ∧
      job = { path := root, place, below := [], scopes } := by
  unfold rootJob at made
  cases above : scopesAbove disk ⟨1, place⟩ with
  | error crash =>
    rw [above] at made
    cases made
  | ok found =>
    rw [above] at made
    cases made
    exact ⟨found.1, rfl, rfl⟩

theorem start_tree {root : Path} {job : Job} {visited : List Place} {logs : List Log.Record}
    (begins : start disk options root = .ok (.tree job visited logs)) :
    disk.lookup root = .ok (job.place, .directory) ∧ rootJob disk root job.place = .ok (job, logs) ∧
      visited = if options.followLinks then [job.place] else [] := by
  unfold start at begins
  split at begins
  · rename_i place found
    cases made : rootJob disk root place with
    | error crash =>
      rw [made] at begins
      cases begins
    | ok first =>
      obtain ⟨first, warnings⟩ := first
      obtain ⟨scopes, -, rfl⟩ := rootJob_eq_ok made
      rw [made] at begins
      cases begins
      exact ⟨found, made, rfl⟩
  · cases begins
  · split at begins <;> cases begins

/-- On the way up from the real root to the top of its checkout, a directory cannot be asked whether it is the top. -/
def MarkFails (disk : Disk) (real : Path) (crash : Crash) : Prop :=
  ∃ nearer above rest, real :: real.ancestors = nearer ++ above :: rest ∧
    (∀ directory ∈ nearer, isTop disk directory = .ok false) ∧ isTop disk above = .error crash

theorem upToTop_eq_error {directories : List Path} {crash : Crash} :
    upToTop disk directories = .error crash ↔ ∃ nearer above rest, directories = nearer ++ above :: rest ∧
      (∀ directory ∈ nearer, isTop disk directory = .ok false) ∧ isTop disk above = .error crash := by
  induction directories with
  | nil => simp [upToTop]
  | cons directory directories ih =>
    constructor
    · intro fails
      rw [upToTop] at fails
      cases top : isTop disk directory with
      | error other =>
        rw [top] at fails
        cases fails
        exact ⟨[], directory, directories, rfl, by simp, top⟩
      | ok isTop =>
        rw [top] at fails
        cases isTop with
        | true => cases fails
        | false =>
          have further : upToTop disk directories = .error crash := by
            cases above : upToTop disk directories with
            | error other => simpa [above, Except.bind, Except.map] using fails
            | ok => simp [above, Except.bind, Except.map] at fails
          obtain ⟨nearer, above, rest, rfl, notTop, fails⟩ := ih.mp further
          exact ⟨directory :: nearer, above, rest, rfl, by simpa [top] using notTop, fails⟩
    · rintro ⟨_ | ⟨nearest, nearer⟩, above, rest, same, notTop, fails⟩
      · cases same
        rw [upToTop, fails]
        rfl
      · cases same
        rw [upToTop, notTop directory (by simp),
          ih.mpr ⟨nearer, above, rest, rfl, fun other member => notTop other (by simp [member]), fails⟩]
        rfl

theorem checkoutAbove_eq_error {real : Path} {crash : Crash} :
    checkoutAbove disk real = .error crash ↔ MarkFails disk real crash := by
  have asked : checkoutAbove disk real = .error crash ↔ upToTop disk (real :: real.ancestors) = .error crash := by
    rw [checkoutAbove, upToTop]
    cases isTop disk real with
    | error => rfl
    | ok top =>
      cases top with
      | true => simp [Except.bind]
      | false => cases upToTop disk real.ancestors <;> simp [Except.bind, Except.map]
  exact asked.trans upToTop_eq_error

theorem scopesAbove_eq_error {real : Path} {crash : Crash} :
    scopesAbove disk real = .error crash ↔ MarkFails disk real crash := by
  rw [← checkoutAbove_eq_error, scopesAbove]
  cases checkoutAbove disk real <;> simp [Except.map]

theorem rootJob_eq_error {root : Path} {place : Place} {crash : Crash} :
    rootJob disk root place = .error crash ↔ MarkFails disk ⟨1, place⟩ crash := by
  rw [← scopesAbove_eq_error, rootJob]
  cases scopesAbove disk ⟨1, place⟩ <;> simp [Except.map]

/-- The search upwards ends at the first top, or there is none. -/
theorem upToTop_cases {directories found : List Path} (searched : upToTop disk directories = .ok found) :
    (∀ directory ∈ directories, isTop disk directory = .ok false) ∧ found = [] ∨
      ∃ nearer top rest, directories = nearer ++ top :: rest ∧
        (∀ directory ∈ nearer, isTop disk directory = .ok false) ∧ isTop disk top = .ok true ∧
        found = nearer ++ [top] := by
  induction directories generalizing found with
  | nil =>
    cases searched
    exact .inl ⟨by simp, rfl⟩
  | cons directory directories ih =>
    rw [upToTop] at searched
    cases asked : isTop disk directory with
    | error => simp [asked, Except.bind] at searched
    | ok here =>
      cases here with
      | true =>
        rw [asked] at searched
        cases searched
        exact .inr ⟨[], directory, directories, rfl, by simp, asked, rfl⟩
      | false =>
        cases above : upToTop disk directories with
        | error => simp [asked, above, Except.bind, Except.map] at searched
        | ok others =>
          rw [asked, above] at searched
          simp only [Except.bind, Except.map, Bool.false_eq_true, if_false, Except.ok.injEq] at searched
          rcases ih above with ⟨none, rfl⟩ | ⟨nearer, top, rest, rfl, notTop, isTop, rfl⟩
          · exact .inl ⟨by simpa [asked] using none, searched.symm⟩
          · refine .inr ⟨directory :: nearer, top, rest, rfl, by simpa [asked] using notTop, isTop, ?_⟩
            rw [← searched]
            simp

theorem upToTop_of_top {directories found : List Path} {top : Path} (listed : top ∈ directories)
    (isTop : isTop disk top = .ok true) (searched : upToTop disk directories = .ok found) : found ≠ [] := by
  rcases upToTop_cases searched with ⟨none, -⟩ | ⟨_, _, _, _, _, _, rfl⟩
  · rw [none top listed] at isTop
    cases isTop
  · simp

theorem upToTop_subset {directories found : List Path} (searched : upToTop disk directories = .ok found) :
    found ⊆ directories := by
  rcases upToTop_cases searched with ⟨-, rfl⟩ | ⟨nearer, top, rest, rfl, -, -, rfl⟩
  · exact List.nil_subset _
  · intro directory member
    simp only [List.mem_append, List.mem_cons, List.not_mem_nil, or_false] at member ⊢
    exact member.imp_right .inl

/-- A walk of a directory begins, unless it fails to find the checkout. -/
theorem start_cases {root : Path} {place : Place} (options : Options)
    (found : disk.lookup root = .ok (place, .directory)) :
    (∃ crash, MarkFails disk ⟨1, place⟩ crash ∧ start disk options root = .error crash) ∨
      ∃ job visited logs, start disk options root = .ok (.tree job visited logs) := by
  rw [start_of_directory options found]
  cases made : rootJob disk root place with
  | error crash => exact .inl ⟨crash, rootJob_eq_error.mp made, rfl⟩
  | ok first => exact .inr ⟨_, _, _, rfl⟩

/-- A walk of the root cannot begin: what the root is cannot be asked, or whether it lies in a checkout. -/
inductive StartFails (disk : Disk) (root : Path) : Crash → Prop where
  | unasked {fault : Fault} (found : disk.lookup root = .error fault) (present : fault.isAbsence = false) :
    StartFails disk root (.system fault root.toString)
  | unmarked {place : Place} {crash : Crash} (found : disk.lookup root = .ok (place, .directory))
    (fails : MarkFails disk ⟨1, place⟩ crash) : StartFails disk root crash

theorem start_eq_error {root : Path} {crash : Crash} :
    start disk options root = .error crash ↔ StartFails disk root crash := by
  constructor
  · intro fails
    unfold start at fails
    split at fails
    · rename_i place found
      cases made : rootJob disk root place with
      | error =>
        rw [made] at fails
        cases fails
        exact .unmarked found (rootJob_eq_error.mp made)
      | ok => simp [made, Except.map] at fails
    · cases fails
    · rename_i fault found
      split at fails
      · cases fails
      · cases fails
        exact .unasked found (Bool.eq_false_iff.mpr ‹_›)
  · rintro (⟨found, present⟩ | ⟨found, fails⟩)
    · simp [start, found, present]
    · rw [start_of_directory options found, rootJob_eq_error.mpr fails]
      rfl

theorem Located.start {root : Path} {job : Job} {visited : List Place} {logs : List Log.Record}
    (begins : start disk options root = .ok (.tree job visited logs)) : Located disk job := by
  obtain ⟨found, made, -⟩ := start_tree begins
  obtain ⟨scopes, -, is⟩ := rootJob_eq_ok made
  refine .of_lookup ?_
  rwa [show job.path = root by rw [is]]

/-- A scan hands out the own entries of the directories it reaches, directory after directory. -/
theorem scan_entries {root : Path} {job : Job} {visited : List Place} {logs : List Log.Record}
    {batches : List Batch} (links : options.followLinks = false)
    (begins : start disk options root = .ok (.tree job visited logs))
    (scanned : scan disk options root = .ok batches) :
    batches.flatMap Batch.entries = (reached disk options [job]).flatMap (ownEntries disk options) := by
  have whole := scanJobs_entries links (weight_singleton_le_enough disk job) visited
  rw [scan, begins] at scanned
  obtain rfl := Except.ok.inj scanned
  rw [List.flatMap_def, List.flatMap_def, List.map_cons, whole]
  rfl

/-- The number of threads is nothing to the scan. -/
theorem scan_threads (disk : Disk) (options : Options) (threads : Int) (root : Path) :
    scan disk { options with threads } root = scan disk options root := by
  have same : ∀ fuel jobs visited,
      scanJobs disk { options with threads } fuel jobs visited =
        scanJobs disk options fuel jobs visited := by
    intro fuel
    induction fuel with
    | zero => intros; rfl
    | succ fuel ih =>
      intro jobs visited
      cases jobs with
      | nil => rfl
      | cons job rest =>
        rw [scanJobs, scanJobs, ih]
        rfl
  rw [scan, scan]
  congr 1
  funext first
  cases first with
  | single => rfl
  | tree job visited logs => simp only [same]

/-! ### The loop of a scan -/

/-- The states that the loop of a scan goes through: the jobs that it has expanded, those on its stack, and the
directories that it has visited. -/
inductive Scans (disk : Disk) (options : Options) (first : Job) (visited : List Place) :
    List Job → List Job → List Place → Prop where
  | start : Scans disk options first visited [] [first] visited
  | pop {opened rest : List Job} {job : Job} {seen : List Place}
    (scans : Scans disk options first visited opened (job :: rest) seen) :
    Scans disk options first visited (opened ++ [job]) ((expand disk options job seen).jobs ++ rest)
      (expand disk options job seen).visited

theorem scanJobs_scans {first : Job} {visited seen : List Place} {opened stack : List Job} {most fuel : Nat}
    (bounded : ∀ opened stack seen, Scans disk options first visited opened stack seen →
      opened.length + stack.length ≤ most)
    (scans : Scans disk options first visited opened stack seen) (enough : most ≤ fuel + opened.length) :
    ∃ more last, Scans disk options first visited (opened ++ more) [] last ∧
      (scanJobs disk options fuel stack seen).map Batch.entries = more.map (ownEntries disk options) := by
  -- each round expands one job, so that the stack is empty when no round is left
  induction fuel generalizing opened stack seen with
  | zero =>
    have most := bounded opened stack seen scans
    obtain rfl : stack = [] := List.length_eq_zero_iff.mp (by omega)
    exact ⟨[], seen, by simpa using scans, rfl⟩
  | succ fuel ih =>
    cases stack with
    | nil => exact ⟨[], seen, by simpa using scans, rfl⟩
    | cons job rest =>
      have fewer : most ≤ fuel + (opened ++ [job]).length := by
        rw [List.length_append, List.length_singleton]
        omega
      obtain ⟨more, last, ends, entries⟩ := ih scans.pop fewer
      refine ⟨job :: more, last, by simpa using ends, ?_⟩
      rw [scanJobs, List.map_cons, List.map_cons, entries, expand_entries]

/-- If the loop of a scan expands no more jobs than there are places, the scan runs it to its end. -/
theorem scan_scans {root : Path} {first : Job} {visited : List Place} {logs : List Log.Record}
    (begins : start disk options root = .ok (.tree first visited logs))
    (bounded : ∀ opened stack seen, Scans disk options first visited opened stack seen →
      opened.length + stack.length ≤ disk.items.length + 1) :
    ∃ batches opened last, scan disk options root = .ok batches ∧
      Scans disk options first visited opened [] last ∧
      batches.map Batch.entries = [] :: opened.map (ownEntries disk options) := by
  obtain ⟨opened, last, ends, entries⟩ := scanJobs_scans bounded .start (Nat.le_succ (disk.items.length + 1))
  refine ⟨⟨logs, []⟩ :: scanJobs disk options (enough disk) [first] visited, opened, last, ?_, ends, ?_⟩
  · rw [scan, begins]
    rfl
  · rw [List.map_cons, ← entries]
    rfl

/-! ### No directory is reached twice -/

/-- The walk comes from the directory of one job to that of another. -/
def Descends (disk : Disk) (options : Options) : Job → Job → Prop :=
  Relation.ReflTransGen fun job child => child ∈ subjobs disk options job

theorem mem_reached_iff (links : options.followLinks = false) {jobs : List Job}
    {job : Job} :
    job ∈ reached disk options jobs ↔ ∃ top ∈ jobs, Descends disk options top job := by
  induction fuel : weight disk jobs using Nat.strongRecOn generalizing jobs with
  | ind fuel ih =>
    cases jobs with
    | nil => simp [reached_nil]
    | cons first rest =>
      have inner := ih _ (fuel ▸ weight_expanded_lt links disk first rest) rfl
      have unroll : Descends disk options first job ↔
          first = job ∨ ∃ child ∈ subjobs disk options first, Descends disk options child job :=
        Relation.ReflTransGen.cases_head_iff
      rw [reached_cons links, List.mem_cons, inner]
      simp only [List.mem_append, List.mem_cons, or_and_right, exists_or, exists_eq_left, unroll, or_assoc,
        @eq_comm _ job]

theorem Descends.place (links : options.followLinks = false) {top job : Job}
    (down : Descends disk options top job) : top.place <+: job.place := by
  induction down with
  | refl => exact List.prefix_refl _
  | tail _ inside ih =>
    rw [subjobs_eq links] at inside
    obtain ⟨name, -, rfl⟩ := List.mem_map.mp inside
    exact ih.trans (List.prefix_append _ [name])

/-- Neither directory lies in the other. -/
def Apart (left right : Job) : Prop := ¬ left.place <+: right.place ∧ ¬ right.place <+: left.place

theorem apart_subjobs (links : options.followLinks = false) (job : Job) :
    (subjobs disk options job).Pairwise Apart := by
  rw [subjobs_eq links, List.pairwise_map]
  refine ((nodup_listedNames disk job).filter _).imp fun {left right} different => ?_
  constructor
  · intro above
    exact different (by simpa [childJob] using above.eq_of_length (by simp [childJob]))
  · intro above
    exact different (by simpa [childJob] using (above.eq_of_length (by simp [childJob])).symm)

theorem apart_of_child {job child other : Job} (links : options.followLinks = false)
    (inside : child ∈ subjobs disk options job) (apart : Apart job other) : Apart child other := by
  rw [subjobs_eq links] at inside
  obtain ⟨name, -, rfl⟩ := List.mem_map.mp inside
  refine ⟨fun above => apart.1 ((List.prefix_append job.place [name]).trans above), fun above => ?_⟩
  rcases List.prefix_concat_iff.mp above with same | above
  · exact apart.1 (same ▸ List.prefix_append job.place [name])
  · exact apart.2 above

theorem nodup_reached (links : options.followLinks = false) (disk : Disk) {jobs : List Job}
    (apart : jobs.Pairwise Apart) : ((reached disk options jobs).map Job.place).Nodup := by
  induction fuel : weight disk jobs using Nat.strongRecOn generalizing jobs with
  | ind fuel ih =>
    cases jobs with
    | nil => exact List.nodup_nil
    | cons job rest =>
      obtain ⟨fromRest, amongRest⟩ := List.pairwise_cons.mp apart
      rw [reached_cons links, List.map_cons, List.nodup_cons]
      constructor
      · intro again
        obtain ⟨other, found, same⟩ := List.mem_map.mp again
        obtain ⟨top, listed, down⟩ := (mem_reached_iff links).mp found
        have above : top.place <+: job.place := same ▸ down.place links
        rcases List.mem_append.mp listed with child | beside
        · rw [subjobs_eq links] at child
          obtain ⟨name, -, rfl⟩ := List.mem_map.mp child
          have longer := above.length_le
          simp [childJob] at longer
        · exact (fromRest top beside).2 above
      · refine ih _ (fuel ▸ weight_expanded_lt links disk job rest) ?_ rfl
        exact List.pairwise_append.mpr ⟨apart_subjobs links job, amongRest,
          fun child inside other beside => apart_of_child links inside (fromRest other beside)⟩

/-! ### A root that cannot be asked -/

/-- A name of so many letters. -/
def letters (length : Nat) : String := String.ofList (List.replicate length 'a')

/-- A directory in which the mark of a checkout is a link to a name that is too long for any file. -/
def markedDisk : Disk where
  items := [(["r"], .directory), (["r", ".git"], .link (letters 256)), (["r", "x.py"], .file [])]
  here := []
  home := "/"
  locked := []
  sealed := []
  tree := by decide

/-- Whether the directory is the top of a checkout cannot be asked, so that no walk of it begins. -/
theorem start_markedDisk (options : Options) :
    start markedDisk options ⟨1, ["r"]⟩ = .error (.system .nameTooLong "/r/.git") := by
  have found : markedDisk.lookup ⟨1, ["r"]⟩ = .ok (["r"], .directory) := by decide +kernel
  have fails : rootJob markedDisk ⟨1, ["r"]⟩ ["r"] = .error (.system .nameTooLong "/r/.git") := by decide +kernel
  rw [start_of_directory options found, fails]
  rfl

end SyntaxTally.Walk
