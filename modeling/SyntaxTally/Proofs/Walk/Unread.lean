import SyntaxTally.Proofs.Walk.Locked

/-!
# Ignore files that cannot be read

A scan of a disk with an ignore file that cannot be read hands out what it hands out when the file is absent, and
a failure for the file in front of what else its directory gives, as long as nothing else that the walk follows
leads through the file (`adds_of_lost`). `faults_stay_in_place` says this together with what is said about
directories that cannot be listed.
-/
namespace SyntaxTally

open Files Ignore

/-! ### Without a file -/

namespace Files

variable {items : Items} {file place : Place}

theorem mem_filter_outside {entry : Place × Item} :
    entry ∈ items.filter (fun entry => ¬ file <+: entry.1) ↔ entry ∈ items ∧ ¬ file <+: entry.1 := by
  simp

theorem itemIn_filter (outside : ¬ file <+: place) :
    itemIn (items.filter fun entry => ¬ file <+: entry.1) place = itemIn items place := by
  by_cases top : place = []
  · rw [top, itemIn, itemIn]
  have same : (fun entry : Place × Item =>
        decide (decide (¬ file <+: entry.1) = true ∧ decide (entry.1 = place) = true)) =
      fun entry => decide (entry.1 = place) := by
    funext entry
    by_cases here : entry.1 = place
    · simp [here, outside]
    · simp [here]
  rw [itemIn_of_ne_nil top, itemIn_of_ne_nil top, List.find?_filter, same]

theorem IsTree.filter (tree : IsTree items) (file : Place) :
    IsTree (items.filter fun entry => ¬ file <+: entry.1) where
  distinct := tree.distinct.sublist (List.filter_sublist.map _)
  named := fun entry listed => tree.named entry (mem_filter_outside.mp listed).1
  rooted := by
    intro entry listed
    obtain ⟨present, outside⟩ := mem_filter_outside.mp listed
    rw [itemIn_filter fun within => outside (within.trans (List.dropLast_prefix _))]
    exact tree.rooted entry present

end Files

/-- The disk without what lies at a place or below it. -/
def Files.Disk.without (disk : Disk) (file : Place) : Disk :=
  { disk with
    items := disk.items.filter fun entry => ¬ file <+: entry.1
    tree := disk.tree.filter file }

namespace Files.Disk

variable {disk : Disk} {file place : Place} {name : String}

theorem item?_without (outside : ¬ file <+: place) : (disk.without file).item? place = disk.item? place :=
  itemIn_filter outside

theorem item?_without_of_within (within : place ++ [name] <+: file) :
    (disk.without (place ++ [name])).item? file = none := by
  rcases file.eq_nil_or_concat with rfl | ⟨above, last, rfl⟩
  · simp at within
  · rw [List.concat_eq_append] at within ⊢
    cases found : (disk.without (place ++ [name])).item? (above ++ [last]) with
    | none => rfl
    | some item => exact absurd within (mem_filter_outside.mp (mem_of_item? found)).2

theorem namesIn_without (disk : Disk) (file place : Place) :
    (disk.without file).namesIn place =
      (disk.namesIn place).filter fun name => ¬ file <+: place ++ [name] := by
  have sorted := (disk.pairwise_namesIn place).filter fun name => ¬ file <+: place ++ [name]
  refine List.Perm.eq_of_pairwise' ((disk.without file).pairwise_namesIn place) sorted ?_
  refine (List.perm_ext_iff_of_nodup ((disk.without file).nodup_namesIn place)
    ((disk.nodup_namesIn place).filter _)).mpr fun name => ?_
  have listed : ∀ item, (place ++ [name], item) ∈ (disk.without file).items ↔
      (place ++ [name], item) ∈ disk.items ∧ ¬ file <+: place ++ [name] := fun item => mem_filter_outside
  simp only [mem_namesIn, listed, List.mem_filter, decide_eq_true_eq, exists_and_right]

end Files.Disk

namespace Walk

/-! ### One ignore file -/

/-- An ignore file is there, but cannot be read as text. -/
structure Unread (disk : Disk) (path : Path) (name : String) (fault : ReadFault) : Prop where
  failed : disk.readText (path.child name) = .error fault
  present : disk.readBytes (path.child name) ≠ .error .missing

variable {disk : Disk} {options : Options} {first : Job} {root path : Path} {place directory : Place}
  {name : String} {fault : ReadFault}

theorem Unread.readIgnoreFile_eq (unread : Unread disk path name fault) :
    readIgnoreFile disk (path.child name) = ([], [.failure (path.child name) fault]) := by
  obtain ⟨failed, present⟩ := unread
  rw [readIgnoreFile, failed]
  rw [Disk.readText] at failed
  cases bytes : disk.readBytes (path.child name) with
  | error reason =>
    rw [bytes] at failed present
    obtain rfl := Except.error.inj failed
    cases reason <;> first | rfl | exact absurd rfl present
  | ok text =>
    rw [bytes, Disk.textOf] at failed
    cases decoded : Text.decodeUtf8 text with
    | error reason =>
      rw [decoded] at failed
      obtain rfl := Except.error.inj failed
      rfl
    | ok chars =>
      rw [decoded] at failed
      cases failed

theorem readRules_congr {left right : Disk} (same : ∀ name ∈ ignoreFileNames,
      readIgnoreFile left (path.child name) = readIgnoreFile right (path.child name)) :
    readRules left path = readRules right path := by
  rw [readRules, readRules]
  congr 1
  · exact List.flatMap_congr fun name listed => by rw [same name listed]
  · exact List.flatMap_congr fun name listed => by rw [same name listed]

/-- What an ignore file gives is the same on two disks that have the same in its place, unless it is a link. -/
theorem readIgnoreFile_of_same {left right : Disk} (both : left.BothReach right path directory)
    (listed : name ∈ ignoreFileNames)
    (same : left.item? (directory ++ [name]) = right.item? (directory ++ [name]))
    (links : ∀ target, right.item? (directory ++ [name]) = some (.link target) →
      readIgnoreFile left (path.child name) = readIgnoreFile right (path.child name)) :
    readIgnoreFile left (path.child name) = readIgnoreFile right (path.child name) := by
  by_cases linked : ∃ target, right.item? (directory ++ [name]) = some (.link target)
  · obtain ⟨target, linked⟩ := linked
    exact links target linked
  · rw [not_exists] at linked
    exact readIgnoreFile_congr (both.readBytes_child (isName_of_ignoreFile listed) same linked)

/-- A walk that finds the same subdirectories in each directory it reaches reaches the same. -/
theorem reached_congr {left right : Disk} (links : options.followLinks = false) {jobs : List Job}
    (same : ∀ job ∈ reached right options jobs, subjobs left options job = subjobs right options job) :
    reached left options jobs = reached right options jobs := by
  induction fuel : weight right jobs using Nat.strongRecOn generalizing jobs with
  | ind fuel ih =>
    cases jobs with
    | nil => rfl
    | cons job rest =>
      have less := weight_expanded_lt links right job rest
      have expanded : reached right options (job :: rest) = _ := reached_cons links job rest
      have expandedToo : reached left options (job :: rest) = _ := reached_cons links job rest
      rw [expanded] at same ⊢
      rw [expandedToo, same job (by simp),
        ih _ (fuel ▸ less) (fun other member => same other (by simp [member])) rfl]

/-! ### What a walk reads -/

/-- A walk reads the ignore files of the directory, by this path: it is in the checkout above the root, or the walk
enters it. -/
def Consulted (disk : Disk) (options : Options) (first : Job) (path : Path) (directory : Place) : Prop :=
  (∃ above, checkoutAbove disk ⟨1, first.place⟩ = .ok above ∧ path ∈ above ∧ directory = path.parts) ∨
    ∃ parts, Entered disk options first parts ∧ path = first.path.under parts ∧ directory = first.place ++ parts

/-- No other path that a walk follows leads through the file: without it the root is the same directory, in the
same checkout, and the same is in the other ignore files that are links. -/
structure Bypassed (disk : Disk) (options : Options) (first : Job) (file : Place) : Prop where
  found : (disk.without file).lookup first.path = .ok (first.place, .directory)
  checkout : checkoutAbove (disk.without file) ⟨1, first.place⟩ = checkoutAbove disk ⟨1, first.place⟩
  links : ∀ path directory name target, Consulted disk options first path directory → name ∈ ignoreFileNames →
    directory ++ [name] ≠ file → disk.item? (directory ++ [name]) = some (.link target) →
    (disk.without file).readBytes (path.child name) = disk.readBytes (path.child name)

theorem within_append {home place : Place} {parts : List String} (within : home ++ [name] <+: place ++ parts) :
    home ++ [name] <+: place ∨ name ∈ parts := by
  induction parts using List.reverseRecOn with
  | nil => exact .inl (by simpa using within)
  | append_singleton parts last ih =>
    rw [← List.append_assoc] at within
    rcases List.prefix_concat_iff.mp within with same | inside
    · obtain rfl : name = last := by simpa using (List.append_inj' same rfl).2
      simp
    · exact (ih inside).imp_right (List.mem_append_left _)

theorem real_of_checkoutAbove {above : List Path} (searched : checkoutAbove disk ⟨1, place⟩ = .ok above)
    (listed : path ∈ above) : path = Path.under ⟨1, []⟩ path.parts := by
  obtain ⟨parts, -, rfl⟩ := List.mem_map.mp (mem_ancestors_of_checkoutAbove searched listed)
  rfl

theorem Consulted.isDir (isDir : disk.item? first.place = some .directory)
    (consulted : Consulted disk options first path directory) : disk.item? directory = some .directory := by
  rcases consulted with ⟨above, searched, listed, rfl⟩ | ⟨parts, entered, -, rfl⟩
  · obtain ⟨lead, -, whole⟩ := exists_lead searched listed
    rw [whole] at isDir
    exact Disk.directory_of_append isDir
  · exact entered.isDir isDir

/-- No directory above the root lies at or below it. -/
theorem ne_of_mem_checkoutAbove {above : List Path} (searched : checkoutAbove disk ⟨1, place⟩ = .ok above)
    (listed : path ∈ above) (parts : List String) : place ++ parts ≠ path.parts := by
  intro same
  obtain ⟨lead, longer, whole⟩ := exists_lead searched listed
  have long := congrArg List.length same
  have short := congrArg List.length whole
  simp only [List.length_append] at long short
  exact longer (List.length_eq_zero_iff.mp (by omega))

/-- A walk has only one path to each directory that it reads. -/
theorem Consulted.path_unique {other : Path} (consulted : Consulted disk options first path directory)
    (also : Consulted disk options first other directory) : path = other := by
  rcases consulted with ⟨above, searched, listed, rfl⟩ | ⟨parts, -, rfl, rfl⟩
  · rcases also with ⟨more, searchedToo, listedToo, same⟩ | ⟨parts, -, -, same⟩
    · rw [real_of_checkoutAbove searched listed, real_of_checkoutAbove searchedToo listedToo, same]
    · exact absurd same.symm (ne_of_mem_checkoutAbove searched listed parts)
  · rcases also with ⟨above, searched, listed, same⟩ | ⟨others, -, rfl, same⟩
    · exact absurd same (ne_of_mem_checkoutAbove searched listed parts)
    · rw [(List.append_right_inj first.place).mp same]

theorem Entered.consulted {parts : List String} (top : first.below = [])
    (entered : Entered disk options first parts) :
    Consulted disk options first (jobAt disk options first parts).path (jobAt disk options first parts).place :=
  .inr ⟨parts, entered, (entered.stands top).called, (entered.stands top).lies⟩

/-- A walk begins alike on another disk where the root is the same directory, in the same checkout and under the same
rules. -/
theorem start_congr {other : Disk} {visited : List Place} {logs : List Log.Record}
    (begins : start disk options first.path = .ok (.tree first visited logs))
    (found : other.lookup first.path = .ok (first.place, .directory))
    (checkout : checkoutAbove other ⟨1, first.place⟩ = checkoutAbove disk ⟨1, first.place⟩)
    (rules : ∀ above, checkoutAbove disk ⟨1, first.place⟩ = .ok above → ∀ directory ∈ above,
      (readRules other directory).1 = (readRules disk directory).1) :
    ∃ logs, start other options first.path = .ok (.tree first visited logs) := by
  obtain ⟨-, made, marked⟩ := start_tree begins
  obtain ⟨-, -, above, opens⟩ := opens_of_rootJob made
  obtain ⟨second, warnings, madeToo, path, place, opensToo⟩ :=
    rootJob_of_checkoutAbove (checkout.trans opens.searched) first.path
  have scopes : second.scopes = first.scopes := by
    rw [opensToo.scopes, opens.scopes, place]
    refine List.flatMap_congr fun directory listed => ?_
    have same : leadScope other first.place directory = leadScope disk first.place directory := by
      rw [leadScope, leadScope, rules above opens.searched directory listed]
    rw [same]
  have below : second.below = first.below := opensToo.top.trans opens.top.symm
  have whole : second = first := by
    cases first
    cases second
    simp_all
  rw [start_of_directory options found, madeToo, marked, whole]
  exact ⟨warnings, rfl⟩

/-- A directory that a walk reads is reached alike on another disk that has it and where the root is the same. -/
theorem Consulted.bothReach {other : Disk} (consulted : Consulted disk options first path directory)
    (found : disk.lookup first.path = .ok (first.place, .directory))
    (alsoFound : other.lookup first.path = .ok (first.place, .directory))
    (isDirToo : other.item? directory = some .directory) (alike : other.sealed = disk.sealed) :
    other.BothReach disk path directory := by
  have isDir := consulted.isDir (Disk.lookup_eq_ok found).2
  refine ⟨?_, alike⟩
  rcases consulted with ⟨above, searched, listed, rfl⟩ | ⟨parts, -, rfl, rfl⟩
  · exact ⟨⟨1, []⟩, [], path.parts, Disk.reaches_real isDirToo, Disk.reaches_real isDir,
      real_of_checkoutAbove searched listed, rfl⟩
  · exact ⟨first.path, first.place, parts, ⟨(Disk.lookup_eq_ok alsoFound).1, isDirToo⟩,
      ⟨(Disk.lookup_eq_ok found).1, isDir⟩, rfl, rfl⟩

/-- An ignore file that cannot be read, with no other path of the walk through it. -/
structure Lost (disk : Disk) (options : Options) (first : Job) (home : Place) (path : Path) (name : String)
    (fault : ReadFault) : Prop where
  listed : name ∈ ignoreFileNames
  unread : Unread disk path name fault
  bypassed : Bypassed disk options first (home ++ [name])

section

variable {home : Place} {above : Path} (shown : options.hidden = false)
  (found : disk.lookup first.path = .ok (first.place, .directory))
  (lost : Lost disk options first home above name fault) (atHome : Consulted disk options first above home)

include shown lost

/-- The file holds no directory that the walk comes to. -/
theorem Lost.outside (consulted : Consulted disk options first path directory) :
    ¬ home ++ [name] <+: directory := by
  have notAbove : ¬ home ++ [name] <+: first.place := by
    intro within
    have kept := (Disk.lookup_eq_ok lost.bypassed.found).2
    rw [Disk.item?_without_of_within within] at kept
    cases kept
  intro within
  rcases consulted with ⟨upper, searched, listed, rfl⟩ | ⟨parts, entered, -, rfl⟩
  · obtain ⟨lead, -, whole⟩ := exists_lead searched listed
    exact notAbove (within.trans ⟨lead, whole.symm⟩)
  · rcases within_append within with inside | member
    · exact notAbove inside
    · exact entered.not_ignoreFile shown member lost.listed

include found

theorem Lost.bothReach (consulted : Consulted disk options first path directory) :
    (disk.without (home ++ [name])).BothReach disk path directory := by
  refine consulted.bothReach found lost.bypassed.found ?_ rfl
  rw [Disk.item?_without (lost.outside shown consulted)]
  exact consulted.isDir (Disk.lookup_eq_ok found).2

/-- The names that a walk looks at in a directory are the same, for the file is none of them. -/
theorem filter_listedNames_without {job : Job} (consulted : Consulted disk options first job.path job.place)
    {left right : String → Bool}
    (agree : ∀ other, (disk.without (home ++ [name])).item? (job.place ++ [other]) =
      disk.item? (job.place ++ [other]) → left other = right other) :
    ((listedNames (disk.without (home ++ [name])) job).filter fun other => admits options other && left other) =
      (listedNames disk job).filter fun other => admits options other && right other := by
  have names : listedNames (disk.without (home ++ [name])) job =
      (listedNames disk job).filter fun other => ¬ home ++ [name] <+: job.place ++ [other] := by
    have barrier : (disk.without (home ++ [name])).barrier? job.path = disk.barrier? job.path := by
      rw [Disk.barrier?, Disk.barrier?, (lost.bothReach shown found consulted).placeOf_eq]
      rfl
    rw [listedNames, listedNames, Disk.namesIn_without, barrier]
    split
    · rfl
    · rfl
  rw [names, List.filter_filter]
  refine List.filter_congr fun other _ => ?_
  by_cases within : home ++ [name] <+: job.place ++ [other]
  · have whole := (List.prefix_concat_iff.mp within).resolve_right (lost.outside shown consulted)
    obtain rfl : name = other := by simpa using (List.append_inj' whole rfl).2
    have hidden : admits options name = false := by
      simp [admits, shown, startsWith_of_ignoreFile lost.listed]
    rw [hidden, Bool.false_and, Bool.false_and, Bool.false_and]
  · rw [agree other (Disk.item?_without within)]
    simp [within]

theorem barredEntry_without {job : Job} (consulted : Consulted disk options first job.path job.place) :
    barredEntry (disk.without (home ++ [name])) job = barredEntry disk job := by
  rw [barredEntry, barredEntry, Disk.barrier?, Disk.barrier?, (lost.bothReach shown found consulted).placeOf_eq]
  rfl

theorem readIgnoreFile_without {other : String} (consulted : Consulted disk options first path directory)
    (listed : other ∈ ignoreFileNames) (different : directory ++ [other] ≠ home ++ [name]) :
    readIgnoreFile (disk.without (home ++ [name])) (path.child other) = readIgnoreFile disk (path.child other) := by
  have outside : ¬ home ++ [name] <+: directory ++ [other] := fun within =>
    (List.prefix_concat_iff.mp within).elim (fun same => different same.symm) (lost.outside shown consulted)
  refine readIgnoreFile_of_same (lost.bothReach shown found consulted) listed (Disk.item?_without outside) ?_
  intro target linked
  exact readIgnoreFile_congr (lost.bypassed.links path directory other target consulted listed different linked)

theorem readRules_without (consulted : Consulted disk options first path directory)
    (elsewhere : directory ≠ home) :
    readRules (disk.without (home ++ [name])) path = readRules disk path :=
  readRules_congr fun _ listed => readIgnoreFile_without shown found lost consulted listed
    fun whole => elsewhere (List.append_inj_left' whole rfl)

include atHome

/-- Once the file is absent, it has no rules: nothing can be read there. -/
theorem readBytes_without_home :
    ∃ fault, (disk.without (home ++ [name])).readBytes (above.child name) = .error fault := by
  have none : (disk.without (home ++ [name])).item? (home ++ [name]) = none :=
    Disk.item?_without_of_within (List.prefix_refl _)
  obtain ⟨root, upper, parts, reaches, -, rfl, whole⟩ := (lost.bothReach shown found atHome).way
  rw [Disk.readBytes, reaches.placeOf_child (isName_of_ignoreFile lost.listed) (by simp [← whole, none]), ← whole]
  split
  · exact ⟨_, rfl⟩
  split
  · exact ⟨_, rfl⟩
  · refine ⟨.missing, ?_⟩
    show Disk.bytesAt _ _ = _
    rw [Disk.bytesAt, none]

/-- Without the file its directory has the same rules. -/
theorem rules_without_home :
    (readRules (disk.without (home ++ [name])) above).1 = (readRules disk above).1 := by
  dsimp only [readRules]
  refine List.flatMap_congr fun other member => ?_
  by_cases itself : other = name
  · obtain ⟨fault, fails⟩ := readBytes_without_home shown found lost atHome
    rw [itself, readIgnoreFile_of_error fails, lost.unread.readIgnoreFile_eq]
  · rw [readIgnoreFile_without shown found lost atHome member fun whole => itself (by simpa using whole)]

/-- Without the file its directory tells about its other ignore files only. -/
theorem failures_without_home
    (absent : (disk.without (home ++ [name])).readBytes (above.child name) = .error .missing) :
    ∃ lead rest, (readRules (disk.without (home ++ [name])) above).2 = lead ++ rest ∧
      (readRules disk above).2 = lead ++ .failure (above.child name) fault :: rest := by
  obtain ⟨before, after, names⟩ := List.append_of_mem lost.listed
  have once : ignoreFileNames.Nodup := by decide
  rw [names, List.nodup_middle, List.nodup_cons] at once
  have beside : ∀ others : List String, (∀ other ∈ others, other ∈ before ++ after) →
      (others.flatMap fun other => (readIgnoreFile (disk.without (home ++ [name])) (above.child other)).2) =
        others.flatMap fun other => (readIgnoreFile disk (above.child other)).2 := by
    intro others inside
    refine List.flatMap_congr fun other member => ?_
    have listed : other ∈ ignoreFileNames := by
      rw [names]
      rcases List.mem_append.mp (inside other member) with left | right <;> simp [*]
    have different : other ≠ name := fun itself => once.1 (itself ▸ inside other member)
    rw [readIgnoreFile_without shown found lost atHome listed fun whole => different (by simpa using whole)]
  refine ⟨before.flatMap fun other => (readIgnoreFile disk (above.child other)).2,
    after.flatMap fun other => (readIgnoreFile disk (above.child other)).2, ?_, ?_⟩
  · rw [readRules, names, List.flatMap_append, List.flatMap_cons, List.flatMap_append, List.flatMap_cons,
      readIgnoreFile_of_missing absent, beside before fun other member => List.mem_append_left _ member,
      beside after fun other member => List.mem_append_right _ member]
    rfl
  · rw [readRules, names, List.flatMap_append, List.flatMap_cons, List.flatMap_append, List.flatMap_cons,
      lost.unread.readIgnoreFile_eq]
    rfl

/-! ### The same jobs -/

theorem rules_without (consulted : Consulted disk options first path directory) :
    (readRules (disk.without (home ++ [name])) path).1 = (readRules disk path).1 := by
  by_cases itself : directory = home
  · obtain rfl : path = above := (itself ▸ consulted).path_unique atHome
    exact rules_without_home shown found lost atHome
  · rw [readRules_without shown found lost consulted itself]

theorem start_without {visited : List Place} {logs : List Log.Record}
    (begins : start disk options first.path = .ok (.tree first visited logs)) :
    ∃ logs, start (disk.without (home ++ [name])) options first.path = .ok (.tree first visited logs) :=
  start_congr begins lost.bypassed.found lost.bypassed.checkout fun above searched _ listed =>
    rules_without shown found lost atHome (.inl ⟨above, searched, listed, rfl⟩)

theorem scopesAt_without {job : Job} (consulted : Consulted disk options first job.path job.place) :
    scopesAt (disk.without (home ++ [name])) options job = scopesAt disk options job := by
  rw [scopesAt, scopesAt, rules_without shown found lost atHome consulted]

theorem subjobs_without (links : options.followLinks = false) {job : Job}
    (consulted : Consulted disk options first job.path job.place) :
    subjobs (disk.without (home ++ [name])) options job = subjobs disk options job := by
  have scopes := scopesAt_without shown found lost atHome consulted
  have names : directoryNames (disk.without (home ++ [name])) options job = directoryNames disk options job := by
    simp only [directoryNames, scopes, Bool.and_assoc]
    refine filter_listedNames_without shown found lost consulted fun other same => ?_
    rw [Disk.isDirectoryAt, Disk.isDirectoryAt, same]
  have child : childJob (disk.without (home ++ [name])) options job = childJob disk options job :=
    childJob_congr (rules_without shown found lost atHome consulted) options
  rw [subjobs_eq links, subjobs_eq links, names, child]

theorem fileNames_without {job : Job} (consulted : Consulted disk options first job.path job.place) :
    fileNames (disk.without (home ++ [name])) options job = fileNames disk options job := by
  have scopes := scopesAt_without shown found lost atHome consulted
  simp only [fileNames, scopes, Bool.and_assoc]
  refine filter_listedNames_without shown found lost consulted fun other same => ?_
  rw [isFileAt, isFileAt, same]

variable (top : first.below = [])

include top

theorem reached_without (links : options.followLinks = false) :
    reached (disk.without (home ++ [name])) options [first] = reached disk options [first] := by
  refine reached_congr links fun job member => ?_
  obtain ⟨parts, entered, rfl⟩ := (mem_reached_root_iff links top).mp member
  exact subjobs_without shown found lost atHome links (entered.consulted top)

/-! ### The entries -/

/-- Apart from its ignore files a directory gives the same. -/
theorem ownEntries_without (links : options.followLinks = false) {parts : List String}
    (entered : Entered disk options first parts) :
    ∃ others, ownEntries disk options (jobAt disk options first parts) =
        (readRules disk (first.path.under parts)).2 ++ others ∧
      ownEntries (disk.without (home ++ [name])) options (jobAt disk options first parts) =
        (readRules (disk.without (home ++ [name])) (first.path.under parts)).2 ++ others := by
  have consulted := entered.consulted top
  rw [ownEntries_eq links, ownEntries_eq links, fileNames_without shown found lost atHome consulted,
    barredEntry_without shown found lost consulted, (entered.stands top).called]
  exact ⟨_, List.append_assoc _ _ _, List.append_assoc _ _ _⟩

theorem ownEntries_without_of_ne (links : options.followLinks = false) {parts : List String}
    (entered : Entered disk options first parts) (elsewhere : first.place ++ parts ≠ home) :
    ownEntries (disk.without (home ++ [name])) options (jobAt disk options first parts) =
      ownEntries disk options (jobAt disk options first parts) := by
  obtain ⟨others, own, absent⟩ := ownEntries_without shown found lost atHome top links entered
  rw [own, absent, readRules_without shown found lost (.inr ⟨parts, entered, rfl, rfl⟩) elsewhere]

end

/-- The second scan hands out what the first one does, and a failure for an ignore file: what its directory gives
before that is about ignore files as well, and nothing else that lies at or beneath the directory comes before. -/
def Adds (root : Path) (parts : List String) (name : String) (fault : ReadFault) (absent whole : List Entry) :
    Prop :=
  ∃ before lead rest after, absent = before ++ lead ++ rest ++ after ∧
    whole = before ++ lead ++ .failure (root.under (parts ++ [name])) fault :: rest ++ after ∧
    (∀ entry ∈ lead, ∃ other ∈ ignoreFileNames, ∃ reason,
      entry = .failure (root.under (parts ++ [other])) reason) ∧
    (∀ entry ∈ lead ++ rest, (root.under parts).holds entry.path = true) ∧
    ∀ entry ∈ before ++ after, (root.under parts).holds entry.path = false

theorem adds_of_lost {parts : List String} (links : options.followLinks = false) (top : first.below = [])
    (shown : options.hidden = false) (found : disk.lookup first.path = .ok (first.place, .directory))
    (entered : Entered disk options first parts)
    (lost : Lost disk options first (first.place ++ parts) (first.path.under parts) name fault)
    (absent : (disk.without (first.place ++ parts ++ [name])).readBytes ((first.path.under parts).child name) =
      .error .missing) :
    Adds first.path parts name fault
      ((reached disk options [first]).flatMap
        (ownEntries (disk.without (first.place ++ parts ++ [name])) options))
      ((reached disk options [first]).flatMap (ownEntries disk options)) := by
  have atHome : Consulted disk options first (first.path.under parts) (first.place ++ parts) :=
    .inr ⟨parts, entered, rfl, rfl⟩
  obtain ⟨before, below, after, block⟩ := exists_block links top entered
  obtain ⟨others, own, without⟩ := ownEntries_without shown found lost atHome top links entered
  obtain ⟨lead, rest, unsaid, said⟩ := failures_without_home shown found lost atHome absent
  have same : ∀ jobs : List Job, (∀ job ∈ jobs, job ∈ below ∨ job ∈ before ++ after) →
      jobs.flatMap (ownEntries (disk.without (first.place ++ parts ++ [name])) options) =
        jobs.flatMap (ownEntries disk options) := by
    intro jobs elsewhere
    refine List.flatMap_congr fun job listed => ?_
    rcases elsewhere job listed with lower | beside
    · obtain ⟨rest, other, rfl, -, different⟩ := block.inside job lower
      exact ownEntries_without_of_ne shown found lost atHome top links other (by simpa using different)
    · obtain ⟨rest, other, rfl, apart⟩ := block.outside job beside
      refine ownEntries_without_of_ne shown found lost atHome top links other fun itself => apart ?_
      exact (List.append_right_inj first.place).mp itself ▸ List.prefix_refl _
  have sameBefore := same before fun job listed => .inr (List.mem_append_left _ listed)
  have sameAfter := same after fun job listed => .inr (List.mem_append_right _ listed)
  have sameBelow := same below fun job listed => .inl listed
  refine ⟨before.flatMap (ownEntries disk options), lead,
    rest ++ others ++ below.flatMap (ownEntries disk options), after.flatMap (ownEntries disk options),
    ?_, ?_, ?_, ?_, ?_⟩
  · rw [block.whole, List.flatMap_append, List.flatMap_append, List.flatMap_cons, sameBefore, sameAfter, sameBelow,
      without, unsaid]
    simp only [List.append_assoc]
  · rw [block.whole, List.flatMap_append, List.flatMap_append, List.flatMap_cons, own, said, child_under]
    simp only [List.append_assoc, List.cons_append]
  · intro entry given
    have told : entry ∈ (readRules disk (first.path.under parts)).2 := by
      rw [said]
      exact List.mem_append_left _ given
    obtain ⟨other, listed, reason, rfl⟩ := readRules_snd told
    exact ⟨other, listed, reason, by rw [child_under]⟩
  · intro entry given
    refine block.holds links top entered ?_
    rw [List.flatMap_cons, own, said]
    simp only [List.mem_append, List.mem_cons] at given ⊢
    tauto
  · intro entry given
    rw [← List.flatMap_append] at given
    exact block.not_holds links top entered shown (Disk.lookup_eq_ok found).2 given

/-! ### Both kinds of faults -/

theorem scan_of_markFails {crash : Crash} (found : disk.lookup root = .ok (place, .directory))
    (fails : checkoutAbove disk ⟨1, place⟩ = .error crash) : scan disk options root = .error crash := by
  rw [scan, start_of_directory options found, rootJob_eq_error.mpr (checkoutAbove_eq_error.mp fails)]
  rfl

/-- What cannot be read changes a scan in its own place only. A directory that cannot be listed gives its ignore
files that cannot be read and itself in the place of what lies in it. An ignore file that cannot be read gives a
failure before what else its directory gives, or nothing if it lies above the root. A scan that fails to find the
checkout of the root fails in the same way in each case. -/
theorem faults_stay_in_place (links : options.followLinks = false) (shown : options.hidden = false)
    (found : disk.lookup root = .ok (place, .directory)) :
    (∃ crash, MarkFails disk ⟨1, place⟩ crash ∧ scan disk options root = .error crash ∧
      (∀ locked, scan (disk.lock locked) options root = .error crash) ∧
      ∀ file, (disk.without file).lookup root = .ok (place, .directory) →
        checkoutAbove (disk.without file) ⟨1, place⟩ = checkoutAbove disk ⟨1, place⟩ →
        scan (disk.without file) options root = .error crash) ∨
    ∃ above first visited logs whole, checkoutAbove disk ⟨1, place⟩ = .ok above ∧
      start disk options root = .ok (.tree first visited logs) ∧ scan disk options root = .ok whole ∧
      (∀ locked, ∃ refused pieces, scan (disk.lock locked) options root = .ok refused ∧
        Sealed disk options first locked (whole.flatMap Batch.entries) (refused.flatMap Batch.entries) pieces) ∧
      (∀ parts name fault, Entered disk options first parts →
        Lost disk options first (place ++ parts) (root.under parts) name fault →
        (disk.without (place ++ parts ++ [name])).readBytes (root.under (parts ++ [name])) = .error .missing →
        ∃ absent, scan (disk.without (place ++ parts ++ [name])) options root = .ok absent ∧
          Adds root parts name fault (absent.flatMap Batch.entries) (whole.flatMap Batch.entries)) ∧
      ∀ directory name fault, directory ∈ above →
        Lost disk options first directory.parts directory name fault →
        ∃ absent, scan (disk.without (directory.parts ++ [name])) options root = .ok absent ∧
          absent.flatMap Batch.entries = whole.flatMap Batch.entries := by
  rcases start_cases options found with ⟨crash, fails, -⟩ | ⟨first, visited, logs, begins⟩
  · have searched := checkoutAbove_eq_error.mpr fails
    have scanned : scan disk options root = .error crash := scan_of_markFails found searched
    refine .inl ⟨crash, fails, scanned, fun locked => ?_, fun file alsoFound checkout => ?_⟩
    · rw [scan, start_lock, start_of_directory options found, rootJob_eq_error.mpr fails]
      rfl
    · exact scan_of_markFails alsoFound (checkout.trans searched)
  · obtain ⟨sameFound, made, -⟩ := start_tree begins
    obtain ⟨rfl, lies, above, opens⟩ := opens_of_rootJob made
    obtain rfl : place = first.place := by
      rw [found] at sameFound
      cases sameFound
      rfl
    have top := opens.top
    obtain ⟨whole, scanned, entries⟩ := scan_of_start links begins
    refine .inr ⟨above, first, visited, logs, whole, opens.searched, begins, scanned, fun locked => ?_,
      fun parts name fault entered lost absent => ?_, fun directory name fault listed lost => ?_⟩
    · have beginsLocked := (start_lock disk locked options first.path).trans begins
      obtain ⟨refused, scannedLocked, entriesLocked⟩ := scan_of_start links beginsLocked
      obtain ⟨pieces, pieced⟩ :=
        sealed_of_lock links top shown (Disk.lookup_eq_ok found).2 locked entries entriesLocked
      exact ⟨refused, pieces, scannedLocked, pieced⟩
    · have atHome : Consulted disk options first (first.path.under parts) (first.place ++ parts) :=
        .inr ⟨parts, entered, rfl, rfl⟩
      obtain ⟨warnings, beginsAbsent⟩ := start_without shown found lost atHome begins
      obtain ⟨absentBatches, scannedAbsent, entriesAbsent⟩ := scan_of_start links beginsAbsent
      refine ⟨absentBatches, scannedAbsent, ?_⟩
      rw [entries, entriesAbsent, reached_without shown found lost atHome top links]
      exact adds_of_lost links top shown found entered lost (by rwa [child_under])
    · have atHome : Consulted disk options first directory directory.parts :=
        .inl ⟨above, opens.searched, listed, rfl⟩
      obtain ⟨warnings, beginsAbsent⟩ := start_without shown found lost atHome begins
      obtain ⟨absent, scannedAbsent, entriesAbsent⟩ := scan_of_start links beginsAbsent
      refine ⟨absent, scannedAbsent, ?_⟩
      rw [entries, entriesAbsent, reached_without shown found lost atHome top links]
      refine List.flatMap_congr fun job member => ?_
      obtain ⟨rest, entered, rfl⟩ := (mem_reached_root_iff links top).mp member
      exact ownEntries_without_of_ne shown found lost atHome top links entered
        (ne_of_mem_checkoutAbove opens.searched listed rest)

/-- A checkout with an ignore file above the root and one below it that are not text. Beside the latter there is a
link to the ignore file of the root. -/
def garbled : Disk where
  items := [(["top"], .directory), (["top", ".git"], .directory), (["top", ".ignore"], .file [0xff]),
    (["top", "src"], .directory), (["top", "src", ".gitignore"], .file "*.log\n".toUTF8.toList),
    (["top", "src", "b.rs"], .file []), (["top", "src", "lib"], .directory),
    (["top", "src", "lib", ".gitignore"], .file [0xff]),
    (["top", "src", "lib", ".ignore"], .link "/top/src/.gitignore"), (["top", "src", "lib", "a.rs"], .file []),
    (["top", "src", "lib", "run.log"], .file [])]
  here := []
  home := "/"
  locked := []
  sealed := []
  tree := by decide

/-- The first job of its scan. The ignore file above the root has no rules, as it cannot be read. -/
def garbledRoot : Job := { path := ⟨1, ["top", "src"]⟩, place := ["top", "src"], below := [], scopes := [] }

theorem lookup_garbled : garbled.lookup ⟨1, ["top", "src"]⟩ = .ok (["top", "src"], .directory) := by decide +kernel

theorem start_garbled :
    checkoutAbove garbled ⟨1, ["top", "src"]⟩ = .ok [⟨1, ["top"]⟩] ∧
    ∃ logs, start garbled {} ⟨1, ["top", "src"]⟩ = .ok (.tree garbledRoot [] logs) := by
  have only : checkoutAbove garbled ⟨1, ["top", "src"]⟩ = .ok [⟨1, ["top"]⟩] := by decide +kernel
  have unruled : (leadScope garbled ["top", "src"] ⟨1, ["top"]⟩).rules = [] := by decide +kernel
  obtain ⟨⟨path, place, below, scopes⟩, logs, made, rfl, rfl, opens⟩ :=
    rootJob_of_checkoutAbove only ⟨1, ["top", "src"]⟩
  obtain rfl : below = [] := opens.top
  obtain rfl : scopes = [] := by simpa [unruled] using opens.scopes
  refine ⟨only, logs, ?_⟩
  rw [start_of_directory {} lookup_garbled, made]
  rfl

theorem bypassed_garbled {file : Place}
    (found : (garbled.without file).lookup ⟨1, ["top", "src"]⟩ = .ok (["top", "src"], .directory))
    (checkout : checkoutAbove (garbled.without file) ⟨1, ["top", "src"]⟩ =
      checkoutAbove garbled ⟨1, ["top", "src"]⟩)
    (link : (garbled.without file).readBytes ⟨1, ["top", "src", "lib", ".ignore"]⟩ =
      garbled.readBytes ⟨1, ["top", "src", "lib", ".ignore"]⟩) :
    Bypassed garbled {} garbledRoot file := by
  refine ⟨found, checkout, fun path directory name target consulted _ _ linked => ?_⟩
  have listed := Disk.mem_of_item? linked
  -- there is but one link on the disk
  have whole : directory ++ [name] = ["top", "src", "lib"] ++ [".ignore"] := by
    simp only [garbled, List.mem_cons, Prod.mk.injEq, reduceCtorEq, and_false, false_or, List.not_mem_nil,
      or_false] at listed
    exact listed.1
  obtain ⟨rfl, same⟩ := List.append_inj' whole rfl
  obtain rfl : name = ".ignore" := by simpa using same
  -- it lies below the root, and the walk has only one path to it
  have only : path = ⟨1, ["top", "src", "lib"]⟩ := by
    rcases consulted with ⟨above, searched, listed, lies⟩ | ⟨parts, -, rfl, lies⟩
    · exact absurd lies.symm (ne_of_mem_checkoutAbove searched listed ["lib"]).symm
    · obtain rfl : ["lib"] = parts := (List.append_right_inj ["top", "src"]).mp lies
      rfl
  rw [only]
  exact link

theorem lost_garbled {home : Place} {path : Path} {name : String} (listed : name ∈ ignoreFileNames)
    (bytes : garbled.readBytes (path.child name) = .ok [0xff])
    (bypassed : Bypassed garbled {} garbledRoot (home ++ [name])) :
    Lost garbled {} garbledRoot home path name (.encoding ⟨0xff, 0, 1, .start⟩) := by
  have undecoded : Text.decodeUtf8 [0xff] = .error ⟨0xff, 0, 1, .start⟩ := by decide +kernel
  refine ⟨listed, ⟨?_, ?_⟩, bypassed⟩
  · rw [Disk.readText, bytes, Disk.textOf, undecoded]
  · rw [bytes]
    simp

theorem faults_stay_in_place_garbled :
    Entered garbled {} garbledRoot ["lib"] ∧
    ∃ whole refused pieces absent unruled,
      scan garbled {} ⟨1, ["top", "src"]⟩ = .ok whole ∧
      scan (garbled.lock ["/top/src/lib"]) {} ⟨1, ["top", "src"]⟩ = .ok refused ∧
      Sealed garbled {} garbledRoot ["/top/src/lib"] (whole.flatMap Batch.entries)
        (refused.flatMap Batch.entries) pieces ∧
      scan (garbled.without ["top", "src", "lib", ".gitignore"]) {} ⟨1, ["top", "src"]⟩ = .ok absent ∧
      Adds ⟨1, ["top", "src"]⟩ ["lib"] ".gitignore" (.encoding ⟨0xff, 0, 1, .start⟩)
        (absent.flatMap Batch.entries) (whole.flatMap Batch.entries) ∧
      scan (garbled.without ["top", ".ignore"]) {} ⟨1, ["top", "src"]⟩ = .ok unruled ∧
      unruled.flatMap Batch.entries = whole.flatMap Batch.entries := by
  obtain ⟨only, warnings, starts⟩ := start_garbled
  have passes : Passes garbled {} garbledRoot [] "lib" true :=
    ⟨by decide, .inr (by decide +kernel), by decide +kernel, by decide +kernel, by decide +kernel⟩
  have entered : Entered garbled {} garbledRoot ["lib"] := .child .root (by decide) passes
  have lower : Lost garbled {} garbledRoot (["top", "src"] ++ ["lib"])
      (Path.under ⟨1, ["top", "src"]⟩ ["lib"]) ".gitignore" (.encoding ⟨0xff, 0, 1, .start⟩) :=
    lost_garbled (by decide) (by decide +kernel)
      (bypassed_garbled (by decide +kernel) (by decide +kernel) (by decide +kernel))
  have upper : Lost garbled {} garbledRoot ["top"] ⟨1, ["top"]⟩ ".ignore" (.encoding ⟨0xff, 0, 1, .start⟩) :=
    lost_garbled (by decide) (by decide +kernel)
      (bypassed_garbled (by decide +kernel) (by decide +kernel) (by decide +kernel))
  rcases faults_stay_in_place (show ({} : Options).followLinks = false from rfl) rfl lookup_garbled with
    ⟨crash, fails, -⟩ | ⟨above, first, visited, logs, whole, searched, begins, scanned, sealing, adding, same⟩
  · rw [← checkoutAbove_eq_error, only] at fails
    cases fails
  · rw [only] at searched
    rw [starts] at begins
    cases searched
    cases begins
    obtain ⟨refused, pieces, scannedLocked, pieced⟩ := sealing ["/top/src/lib"]
    obtain ⟨absent, scannedAbsent, adds⟩ := adding _ _ _ entered lower (by decide +kernel)
    obtain ⟨unruled, scannedUnruled, unchanged⟩ := same _ _ _ List.mem_cons_self upper
    exact ⟨entered, whole, refused, pieces, absent, unruled, scanned, scannedLocked, pieced, scannedAbsent, adds,
      scannedUnruled, unchanged⟩

/-- An ignore file that is not text, and another one that is a link to it. -/
def shared : Disk where
  items := [(["r"], .directory), (["r", "a"], .directory), (["r", "a", ".gitignore"], .link "/r/b/.gitignore"),
    (["r", "a", "x.py"], .file []), (["r", "b"], .directory), (["r", "b", ".gitignore"], .file [0xff]),
    (["r", "b", "y.py"], .file [])]
  here := []
  home := "/"
  locked := []
  sealed := []
  tree := by decide

/-- There the scan tells about the link as well, and without the file it tells about neither. -/
theorem shared_ignoreFile_told_twice :
    shared.lookup ⟨1, ["r"]⟩ = .ok (["r"], .directory) ∧
    (scan shared {} ⟨1, ["r"]⟩).map (fun batches => (batches.flatMap Batch.entries).map Entry.path) =
      .ok [⟨1, ["r", "a", ".gitignore"]⟩, ⟨1, ["r", "a", "x.py"]⟩, ⟨1, ["r", "b", ".gitignore"]⟩,
        ⟨1, ["r", "b", "y.py"]⟩] ∧
    (scan (shared.without ["r", "b", ".gitignore"]) {} ⟨1, ["r"]⟩).map
        (fun batches => (batches.flatMap Batch.entries).map Entry.path) =
      .ok [⟨1, ["r", "a", "x.py"]⟩, ⟨1, ["r", "b", "y.py"]⟩] := by
  refine ⟨?_, ?_, ?_⟩ <;> decide +kernel

end Walk

end SyntaxTally
