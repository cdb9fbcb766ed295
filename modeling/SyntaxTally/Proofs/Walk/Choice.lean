import Mathlib.Data.List.Induction
import SyntaxTally.Proofs.Walk.Scan

/-!
# Which files a scan hands out

A directory or file below the root of a scan is given by the components that lead to it. `Chosen` says which
files are wanted, by looking at each component on the way, and `Sequence` says in which order directories
are gone through. `scan_hands_out_chosen` shows that the scan follows both.
-/
namespace SyntaxTally.Walk

open Files Ignore

/-! ### Scopes by components -/

/-- The components with slashes between them. -/
def spelled (parts : List String) : List Char := joined (parts.map String.toList)

/-- The scope of the ignore files in a directory below the root. -/
def ownScope (disk : Disk) (root : Path) (parts : List String) : Scope where
  base := spelled parts
  rules := (readRules disk (root.under parts)).1

/-- The scopes for what is in a directory below the root of a walk: those of the checkout above the root, which the
first job of the walk has, that of the root, what the options exclude, and those of the directories from the root
down. -/
def scopesOver (disk : Disk) (options : Options) (first : Job) (parts : List String) : List Scope :=
  first.scopes ++ [ownScope disk first.path [], excludeScope options] ++
    (List.range parts.length).map fun k => ownScope disk first.path (parts.take (k + 1))

/-- What is asked of each component on the way to a file: `above` leads to the directory of the name. -/
structure Passes (disk : Disk) (options : Options) (first : Job) (above : List String) (name : String)
    (isDir : Bool) : Prop where
  tracked : name ∉ [".git", ".hg", ".svn"]
  shown : options.hidden = true ∨ name.startsWith "." = false
  unlinked : isLinkAt disk (first.place ++ above ++ [name]) = false
  listable : disk.barrier? (first.path.under above) = none
  kept : ignored (spelled (above ++ [name])) isDir (scopesOver disk options first above) = false

/-- A regular file below the root that is wanted, by the components that lead to it: all of them but the
last are directories. -/
structure Chosen (disk : Disk) (options : Options) (first : Job) (parts : List String) : Prop where
  regular : ∃ bytes, parts ≠ [] ∧ disk.item? (first.place ++ parts) = some (.file bytes)
  passes : ∀ above name rest, parts = above ++ name :: rest →
    Passes disk options first above name (!rest.isEmpty)

/-- The entry for a directory that cannot be listed. -/
def barredAt (disk : Disk) (path : Path) : List Entry :=
  (disk.barrier? path).toList.map fun fault => .failure path (.system fault path.toString)

/-- What a walk of the directories at these components hands out, in its order. A directory gives its ignore
files that cannot be read, then itself if it cannot be listed, then its files in increasing order, and then
all that its subdirectories give, in increasing order as well. No other name in it gives an error: only a link
can lead nowhere, and links are not followed. -/
inductive Sequence (disk : Disk) (options : Options) (first : Job) : List (List String) → List Entry → Prop
  | nil : Sequence disk options first [] []
  | directory {parts files subdirectories : List String} {others : List (List String)}
    {below after : List Entry} (fileOrder : files.Pairwise (· < ·))
    (isFile : ∀ name, name ∈ files ↔ ∃ bytes, disk.item? (first.place ++ parts ++ [name]) = some (.file bytes) ∧
      Passes disk options first parts name false)
    (directoryOrder : subdirectories.Pairwise (· < ·))
    (isDir : ∀ name, name ∈ subdirectories ↔ disk.item? (first.place ++ parts ++ [name]) = some .directory ∧
      Passes disk options first parts name true)
    (down : Sequence disk options first (subdirectories.map fun name => parts ++ [name]) below)
    (next : Sequence disk options first others after) :
      Sequence disk options first (parts :: others)
        ((readRules disk (first.path.under parts)).2 ++ barredAt disk (first.path.under parts) ++
          files.map (fun name => .file (first.path.under (parts ++ [name]))) ++ below ++ after)

/-! ### Jobs by components -/

theorem child_under (root : Path) (parts : List String) (name : String) :
    (root.under parts).child name = root.under (parts ++ [name]) := by
  simp [Path.child, Path.under]

/-- The job is that for the directory at the components below the root. -/
structure Stands (disk : Disk) (options : Options) (first : Job) (parts : List String) (job : Job) : Prop where
  called : job.path = first.path.under parts
  lies : job.place = first.place ++ parts
  spells : job.below = spelled parts
  isRoot : job.below = [] ↔ parts = []
  scopes : ∀ path isDir, (scopesAt disk options job).flatMap (·.matching path isDir) =
    (scopesOver disk options first parts).flatMap (·.matching path isDir)

variable {disk : Disk} {options : Options} {parts : List String} {name : String} {first job : Job}

theorem spelled_nil : spelled [] = [] := rfl

theorem spelled_append_singleton (some : parts ≠ []) (name : String) :
    spelled (parts ++ [name]) = spelled parts ++ '/' :: name.toList := by
  induction parts with
  | nil => exact absurd rfl some
  | cons first rest ih =>
    cases rest with
    | nil => simp [spelled, joined]
    | cons second others =>
      have inner := ih (by simp)
      simp only [spelled, joined, List.cons_append, List.map_cons, List.intercalate_cons_cons] at inner ⊢
      rw [inner]
      simp

theorem spelled_ne_nil (parts : List String) (proper : name ≠ "") : spelled (parts ++ [name]) ≠ [] := by
  cases parts with
  | nil => simpa [spelled, joined] using proper
  | cons first rest =>
    rw [spelled_append_singleton (by simp)]
    simp

theorem belowOf_eq (stands : Stands disk options first parts job) (name : String) :
    belowOf job name = spelled (parts ++ [name]) := by
  unfold belowOf
  split
  · rename_i empty
    have top := stands.isRoot.mp (List.isEmpty_iff.mp empty)
    simp [top, spelled, joined]
  · rename_i full
    have below : parts ≠ [] := fun top => full (List.isEmpty_iff.mpr (stands.isRoot.mpr top))
    rw [stands.spells, spelled_append_singleton below]

theorem scopesOver_append (parts : List String) (name : String) :
    scopesOver disk options first (parts ++ [name]) =
      scopesOver disk options first parts ++ [ownScope disk first.path (parts ++ [name])] := by
  have upTo : (List.range parts.length).map
        (fun k => ownScope disk first.path ((parts ++ [name]).take (k + 1))) =
      (List.range parts.length).map fun k => ownScope disk first.path (parts.take (k + 1)) := by
    refine List.map_congr_left fun k inside => ?_
    rw [List.take_append_of_le_length (List.mem_range.mp inside)]
  simp only [scopesOver, List.length_append, List.length_singleton, List.range_succ, List.map_append, upTo,
    List.map_singleton, List.append_assoc]
  rw [List.take_of_length_le (by simp)]

/-! ### Descending keeps the description -/

theorem flatMap_matching (scope : Scope) (path : List Char) (isDir : Bool) :
    (if scope.rules.isEmpty then [] else [scope]).flatMap (·.matching path isDir) =
      scope.matching path isDir := by
  split
  · rename_i empty
    have none : scope.rules = [] := List.isEmpty_iff.mp empty
    simp only [List.flatMap_nil, Scope.matching, none, List.filter_nil]
    split <;> rfl
  · simp

theorem flatMap_scopesIn (options : Options) (job : Job) (rules : List Rule) (path : List Char)
    (isDir : Bool) :
    (scopesIn options job rules).flatMap (·.matching path isDir) =
      job.scopes.flatMap (·.matching path isDir) ++
        ({ base := job.below, rules } : Scope).matching path isDir ++
        if job.below.isEmpty then (excludeScope options).matching path isDir else [] := by
  have own := flatMap_matching { base := job.below, rules } path isDir
  have excluded := flatMap_matching (excludeScope options) path isDir
  simp only [scopesIn, List.flatMap_append, own]
  congr 1
  cases job.below.isEmpty with
  | false => simp
  | true =>
    rw [if_pos rfl, ← excluded]
    cases (excludeScope options).rules.isEmpty <;> rfl

theorem stands_root (top : first.below = []) : Stands disk options first [] first where
  called := by simp [Path.under]
  lies := by simp
  spells := top
  isRoot := by simp [top]
  scopes path isDir := by
    rw [scopesAt, flatMap_scopesIn]
    simp [scopesOver, ownScope, spelled_nil, Path.under, top]

theorem stands_child (stands : Stands disk options first parts job) (proper : name ≠ "") :
    Stands disk options first (parts ++ [name]) (childJob disk options job name) := by
  have called : (childJob disk options job name).path = first.path.under (parts ++ [name]) := by
    simp [childJob, stands.called, child_under]
  have lies : (childJob disk options job name).place = first.place ++ (parts ++ [name]) := by
    simp [childJob, stands.lies]
  have spells : (childJob disk options job name).below = spelled (parts ++ [name]) := belowOf_eq stands name
  have below : (childJob disk options job name).below ≠ [] := by
    rw [spells]
    exact spelled_ne_nil parts proper
  refine ⟨called, lies, spells, by simp [below], fun path isDir => ?_⟩
  rw [scopesAt, flatMap_scopesIn, if_neg (by simpa using below), called, spells, List.append_nil,
    scopesOver_append, List.flatMap_append, ← stands.scopes]
  simp [childJob, ownScope]

/-! ### What is kept in a directory -/

theorem admits_iff (options : Options) (name : String) :
    admits options name = true ↔
      name ∉ [".git", ".hg", ".svn"] ∧ (options.hidden = true ∨ name.startsWith "." = false) := by
  simp [admits, versionControlNames]

theorem mem_listedNames_iff : name ∈ listedNames disk job ↔
    disk.barrier? job.path = none ∧ (disk.item? (job.place ++ [name])).isSome := by
  rw [← Disk.mem_namesIn_iff_item?, listedNames]
  cases disk.barrier? job.path <;> simp

theorem passes_iff {item : Item} {isDir : Bool} (stands : Stands disk options first parts job)
    (found : disk.item? (first.place ++ parts ++ [name]) = some item) (plain : ∀ target, item ≠ .link target) :
    Passes disk options first parts name isDir ↔
      name ∈ listedNames disk job ∧ admits options name = true ∧
        ignored (belowOf job name) isDir (scopesAt disk options job) = false := by
  have unlinked : isLinkAt disk (first.place ++ parts ++ [name]) = false := by
    cases item <;> simp_all [isLinkAt]
  have same : ignored (belowOf job name) isDir (scopesAt disk options job) =
      ignored (spelled (parts ++ [name])) isDir (scopesOver disk options first parts) := by
    rw [ignored, ignored, stands.scopes, belowOf_eq stands]
  rw [mem_listedNames_iff, admits_iff, same, stands.called, stands.lies, found]
  constructor
  · intro passes
    exact ⟨⟨passes.listable, rfl⟩, ⟨passes.tracked, passes.shown⟩, passes.kept⟩
  · rintro ⟨⟨listable, -⟩, ⟨tracked, shown⟩, kept⟩
    exact ⟨tracked, shown, unlinked, listable, kept⟩

theorem mem_directoryNames_iff (stands : Stands disk options first parts job) :
    name ∈ directoryNames disk options job ↔
      disk.item? (first.place ++ parts ++ [name]) = some .directory ∧
        Passes disk options first parts name true := by
  rw [directoryNames, List.mem_filter, Disk.isDirectoryAt, stands.lies]
  constructor
  · rintro ⟨listed, kept⟩
    simp only [Bool.and_eq_true, decide_eq_true_eq, Bool.not_eq_true'] at kept
    obtain ⟨⟨admitted, found⟩, kept⟩ := kept
    exact ⟨found, (passes_iff stands found (fun _ => Item.noConfusion)).mpr ⟨listed, admitted, kept⟩⟩
  · rintro ⟨found, passes⟩
    obtain ⟨listed, admitted, kept⟩ := (passes_iff stands found (fun _ => Item.noConfusion)).mp passes
    exact ⟨listed, by simp only [admitted, found, kept, decide_true, Bool.and_self, Bool.not_false]⟩

theorem isFileAt_iff : isFileAt disk place = true ↔ ∃ bytes, disk.item? place = some (.file bytes) := by
  unfold isFileAt
  split <;> simp_all

theorem mem_fileNames_iff (stands : Stands disk options first parts job) :
    name ∈ fileNames disk options job ↔
      ∃ bytes, disk.item? (first.place ++ parts ++ [name]) = some (.file bytes) ∧
        Passes disk options first parts name false := by
  rw [fileNames, List.mem_filter, stands.lies]
  constructor
  · rintro ⟨listed, kept⟩
    simp only [Bool.and_eq_true, isFileAt_iff, Bool.not_eq_true'] at kept
    obtain ⟨⟨admitted, bytes, found⟩, kept⟩ := kept
    exact ⟨bytes, found, (passes_iff stands found (fun _ => Item.noConfusion)).mpr ⟨listed, admitted, kept⟩⟩
  · rintro ⟨bytes, found, passes⟩
    obtain ⟨listed, admitted, kept⟩ := (passes_iff stands found (fun _ => Item.noConfusion)).mp passes
    exact ⟨listed,
      by simp only [admitted, isFileAt_iff.mpr ⟨bytes, found⟩, kept, Bool.and_self, Bool.not_false]⟩

/-! ### The directories on the way -/

/-- The walk enters the directory at these components. -/
inductive Entered (disk : Disk) (options : Options) (first : Job) : List String → Prop
  | root : Entered disk options first []
  | child {parts : List String} {name : String} (above : Entered disk options first parts)
    (isDir : disk.item? (first.place ++ parts ++ [name]) = some .directory)
    (passes : Passes disk options first parts name true) :
    Entered disk options first (parts ++ [name])

/-- The job for the directory at the components below the root. -/
def jobAt (disk : Disk) (options : Options) (first : Job) (parts : List String) : Job :=
  parts.foldl (childJob disk options) first

theorem jobAt_append (parts : List String) (name : String) :
    jobAt disk options first (parts ++ [name]) =
      childJob disk options (jobAt disk options first parts) name := by
  simp [jobAt]

theorem Entered.stands (top : first.below = []) (entered : Entered disk options first parts) :
    Stands disk options first parts (jobAt disk options first parts) := by
  induction entered with
  | root => exact stands_root top
  | child _ isDir _ ih =>
    rw [jobAt_append]
    exact stands_child ih (Disk.isName_of_item? isDir).1

theorem mem_subjobs_iff {child : Job} (links : options.followLinks = false)
    (stands : Stands disk options first parts job) :
    child ∈ subjobs disk options job ↔
      ∃ name, disk.item? (first.place ++ parts ++ [name]) = some .directory ∧
        Passes disk options first parts name true ∧ child = childJob disk options job name := by
  rw [subjobs_eq links, List.mem_map]
  simp only [mem_directoryNames_iff stands, and_assoc, eq_comm]

theorem mem_reached_root_iff (links : options.followLinks = false) (top : first.below = []) :
    job ∈ reached disk options [first] ↔
      ∃ parts, Entered disk options first parts ∧ job = jobAt disk options first parts := by
  rw [mem_reached_iff links]
  constructor
  · rintro ⟨other, only, down⟩
    obtain rfl : other = first := by simpa using only
    induction down with
    | refl => exact ⟨[], .root, rfl⟩
    | tail _ inside ih =>
      obtain ⟨parts, entered, rfl⟩ := ih
      obtain ⟨name, isDir, passes, rfl⟩ := (mem_subjobs_iff links (entered.stands top)).mp inside
      exact ⟨parts ++ [name], entered.child isDir passes, (jobAt_append parts name).symm⟩
  · rintro ⟨parts, entered, rfl⟩
    refine ⟨_, List.mem_singleton_self _, ?_⟩
    induction entered with
    | root => exact .refl
    | child above isDir passes ih =>
      refine ih.tail ((mem_subjobs_iff links (above.stands top)).mpr ⟨_, isDir, passes, ?_⟩)
      exact jobAt_append _ _

/-! ### The files -/

theorem Entered.passes (entered : Entered disk options first parts) {above rest : List String}
    (split : parts = above ++ name :: rest) : Passes disk options first above name true := by
  induction entered generalizing rest with
  | root => simp at split
  | child _ _ passes ih =>
    rcases List.eq_nil_or_concat rest with rfl | ⟨inner, last, rfl⟩
    · obtain ⟨rfl, same⟩ := List.append_inj' split rfl
      obtain rfl : _ = name := by simpa using same
      exact passes
    · rw [List.concat_eq_append, ← List.cons_append, ← List.append_assoc] at split
      exact ih (List.append_inj_left' split rfl)

theorem entered_of_passes {item : Item} (found : disk.item? (first.place ++ parts ++ [name]) = some item)
    (passes : ∀ above name rest, parts = above ++ name :: rest →
      Passes disk options first above name true) :
    Entered disk options first parts := by
  induction parts using List.reverseRecOn generalizing name item with
  | nil => exact .root
  | append_singleton parts last ih =>
    rw [← List.append_assoc first.place] at found
    have isDir := Disk.directory_above found
    have above : Entered disk options first parts :=
      ih isDir fun above name rest split => passes above name (rest ++ [last]) (by simp [split])
    exact above.child isDir (passes parts last [] rfl)

theorem chosen_iff (parts : List String) (name : String) :
    Chosen disk options first (parts ++ [name]) ↔
      Entered disk options first parts ∧
        ∃ bytes, disk.item? (first.place ++ parts ++ [name]) = some (.file bytes) ∧
          Passes disk options first parts name false := by
  constructor
  · rintro ⟨⟨bytes, -, found⟩, passes⟩
    rw [← List.append_assoc] at found
    refine ⟨entered_of_passes found fun above mid rest split => ?_,
      bytes, found, passes parts name [] rfl⟩
    have more : (!(rest ++ [name]).isEmpty) = true := by simp
    exact more ▸ passes above mid (rest ++ [name]) (by simp [split])
  · rintro ⟨entered, bytes, found, last⟩
    refine ⟨⟨bytes, by simp, by rw [← List.append_assoc]; exact found⟩, fun above mid rest split => ?_⟩
    rcases List.eq_nil_or_concat rest with rfl | ⟨inner, final, rfl⟩
    · obtain ⟨rfl, same⟩ := List.append_inj' split rfl
      obtain rfl : name = mid := by simpa using same
      exact last
    · rw [List.concat_eq_append, ← List.cons_append, ← List.append_assoc] at split
      have more : (!(inner.concat final).isEmpty) = true := by simp
      exact more ▸ entered.passes (List.append_inj_left' split rfl)

/-- The paths of the files among the entries. -/
def filePaths (entries : List Entry) : List Path :=
  entries.filterMap fun
    | .file path => some path
    | .failure _ _ => none

/-! ### The order -/

theorem ownEntries_of_stands (links : options.followLinks = false)
    (stands : Stands disk options first parts job) :
    ownEntries disk options job = (readRules disk (first.path.under parts)).2 ++
      barredAt disk (first.path.under parts) ++
      (fileNames disk options job).map fun name => .file (first.path.under (parts ++ [name])) := by
  rw [ownEntries_eq links, barredEntry, barredAt, stands.called]
  simp only [child_under]
  cases disk.barrier? (first.path.under parts) <;> rfl

theorem subjobs_jobAt (links : options.followLinks = false) (disk : Disk) (first : Job) (parts : List String) :
    subjobs disk options (jobAt disk options first parts) =
      ((directoryNames disk options (jobAt disk options first parts)).map
        fun name => parts ++ [name]).map (jobAt disk options first) := by
  rw [subjobs_eq links, List.map_map]
  exact List.map_congr_left fun name _ => (jobAt_append parts name).symm

theorem sequence_reached (links : options.followLinks = false) (top : first.below = [])
    {directories : List (List String)}
    (entered : ∀ parts ∈ directories, Entered disk options first parts) :
    Sequence disk options first directories
      ((reached disk options (directories.map (jobAt disk options first))).flatMap
        (ownEntries disk options)) := by
  -- the subdirectories weigh less than the directory they are in, and so do the directories after it
  induction fuel : weight disk (directories.map (jobAt disk options first)) using Nat.strongRecOn
    generalizing directories with
  | ind fuel ih =>
    cases directories with
    | nil => exact .nil
    | cons parts others =>
      have above := entered parts (by simp)
      have stands := above.stands top
      have inner := subjobs_jobAt links disk first parts
      have less := weight_subjobs_le links disk (jobAt disk options first parts)
      rw [inner] at less
      rw [List.map_cons, weight_cons] at fuel
      have enteredBelow : ∀ below ∈ (directoryNames disk options (jobAt disk options first parts)).map
          fun name => parts ++ [name], Entered disk options first below := by
        intro below listed
        obtain ⟨name, member, rfl⟩ := List.mem_map.mp listed
        obtain ⟨isDir, passes⟩ := (mem_directoryNames_iff stands).mp member
        exact above.child isDir passes
      have enteredNext : ∀ next ∈ others, Entered disk options first next :=
        fun next member => entered next (by simp [member])
      have down := ih _ (by omega) enteredBelow rfl
      have next := ih _ (by omega) enteredNext rfl
      rw [List.map_cons, reached_cons links, reached_append links, List.flatMap_cons,
        List.flatMap_append, inner, ownEntries_of_stands links stands, ← List.append_assoc]
      exact .directory ((pairwise_listedNames disk _).filter _) (fun name => mem_fileNames_iff stands)
        ((pairwise_listedNames disk _).filter _) (fun name => mem_directoryNames_iff stands) down next

/-! ### The whole scan -/

theorem filePaths_append (entries more : List Entry) :
    filePaths (entries ++ more) = filePaths entries ++ filePaths more :=
  List.filterMap_append

theorem filePaths_readRules (disk : Disk) (path : Path) : filePaths (readRules disk path).2 = [] := by
  rw [filePaths, List.filterMap_eq_nil_iff]
  intro entry listed
  obtain ⟨name, -, given⟩ := List.mem_flatMap.mp listed
  rcases readIgnoreFile_failures disk (path.child name) with none | ⟨fault, one⟩
  · simp [none] at given
  · rw [one, List.mem_singleton] at given
    rw [given]

theorem filePaths_barredAt (disk : Disk) (path : Path) : filePaths (barredAt disk path) = [] := by
  unfold barredAt
  cases disk.barrier? path <;> rfl

theorem filePaths_ownEntries (links : options.followLinks = false)
    (stands : Stands disk options first parts job) :
    filePaths (ownEntries disk options job) =
      (fileNames disk options job).map fun name => first.path.under (parts ++ [name]) := by
  rw [ownEntries_of_stands links stands, filePaths_append, filePaths_append, filePaths_readRules,
    filePaths_barredAt]
  simp [filePaths, List.filterMap_map]

theorem under_injective (root : Path) : Function.Injective root.under := by
  intro left right same
  simpa [Path.under] using same

theorem filePaths_flatMap (jobs : List Job) :
    filePaths (jobs.flatMap (ownEntries disk options)) =
      jobs.flatMap fun job => filePaths (ownEntries disk options job) :=
  List.filterMap_flatMap

theorem nodup_filePaths (links : options.followLinks = false) (disk : Disk) (top : first.below = []) :
    (filePaths ((reached disk options [first]).flatMap (ownEntries disk options))).Nodup := by
  have distinct := nodup_reached links disk (List.pairwise_singleton Apart first)
  rw [filePaths_flatMap, List.nodup_flatMap]
  constructor
  · intro job found
    obtain ⟨parts, entered, rfl⟩ := (mem_reached_root_iff links top).mp found
    rw [filePaths_ownEntries links (entered.stands top)]
    refine ((nodup_listedNames disk _).filter _).map fun left right same => ?_
    simpa using under_injective first.path same
  · refine (List.pairwise_map.mp distinct).imp_of_mem fun {left right} foundLeft foundRight different => ?_
    obtain ⟨ofLeft, enteredLeft, rfl⟩ := (mem_reached_root_iff links top).mp foundLeft
    obtain ⟨ofRight, enteredRight, rfl⟩ := (mem_reached_root_iff links top).mp foundRight
    intro path inLeft inRight
    simp only [filePaths_ownEntries links (enteredLeft.stands top), List.mem_map] at inLeft
    simp only [filePaths_ownEntries links (enteredRight.stands top), List.mem_map] at inRight
    obtain ⟨nameLeft, -, rfl⟩ := inLeft
    obtain ⟨nameRight, -, same⟩ := inRight
    -- a path says in which directory it is
    have sameParts : ofRight = ofLeft := List.append_inj_left' (under_injective first.path same) rfl
    exact different (by rw [sameParts])

theorem mem_filePaths_iff {path : Path} (links : options.followLinks = false) (top : first.below = []) :
    path ∈ filePaths ((reached disk options [first]).flatMap (ownEntries disk options)) ↔
      ∃ parts, path = first.path.under parts ∧ Chosen disk options first parts := by
  rw [filePaths_flatMap, List.mem_flatMap]
  constructor
  · rintro ⟨job, found, given⟩
    obtain ⟨parts, entered, rfl⟩ := (mem_reached_root_iff links top).mp found
    have stands := entered.stands top
    rw [filePaths_ownEntries links stands] at given
    obtain ⟨name, kept, rfl⟩ := List.mem_map.mp given
    exact ⟨parts ++ [name], rfl,
      (chosen_iff parts name).mpr ⟨entered, (mem_fileNames_iff stands).mp kept⟩⟩
  · rintro ⟨parts, rfl, chosen⟩
    obtain ⟨-, below, -⟩ := chosen.regular
    obtain ⟨above, name, rfl⟩ := (List.eq_nil_or_concat' parts).resolve_left below
    obtain ⟨entered, kept⟩ := (chosen_iff above name).mp chosen
    have stands := entered.stands top
    refine ⟨jobAt disk options first above,
      (mem_reached_root_iff links top).mpr ⟨above, entered, rfl⟩, ?_⟩
    rw [filePaths_ownEntries links stands]
    exact List.mem_map.mpr ⟨name, (mem_fileNames_iff stands).mpr kept, rfl⟩

/-- A checkout with an ignore file, hidden files, a link and a directory that cannot be listed. -/
def checkout : Disk where
  items := [(["src"], .directory), (["src", ".git"], .directory), (["src", ".git", "HEAD"], .file []),
    (["src", ".gitignore"], .file "*.log\n!keep.log\n".toUTF8.toList), (["src", "run.log"], .file []),
    (["src", "keep.log"], .file []), (["src", "lib"], .directory), (["src", "lib", "a.rs"], .file []),
    (["src", "lib", "again"], .link "a.rs"), (["src", "sealed"], .directory),
    (["src", "sealed", "b.rs"], .file [])]
  here := []
  home := "/"
  locked := ["/src/sealed"]
  sealed := []
  tree := by decide

def checkoutRoot : Job := { path := ⟨1, ["src"]⟩, place := ["src"], below := [], scopes := [] }

end SyntaxTally.Walk
