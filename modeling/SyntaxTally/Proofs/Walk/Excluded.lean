import SyntaxTally.Proofs.Files.Write
import SyntaxTally.Proofs.Ignore.Lines
import SyntaxTally.Proofs.Walk.Twin
import SyntaxTally.Proofs.Walk.Unread

/-!
# Excluded lines in the root's ignore file

What the options exclude is left out as if the lines stood at the end of the `.ignore` file of the root: a scan
without them, on a disk where they are added to that file, hands out the same (`excluded_as_lines`). This asks
that nothing else the scan follows leads to the file, for then its new lines would count twice.
-/
namespace SyntaxTally

open Files Ignore

/-- The disk with lines added to a file, which is made if it is missing. -/
def Files.Disk.addLines (disk : Disk) (file : Place) (lines : List String) : Disk :=
  let before := (disk.bytesAt file).toOption.getD []
  disk.put file (.file (before ++ addedLines before lines))

namespace Walk

variable {disk other : Disk} {options others : Options} {root path : Path} {home place directory file : Place}
  {job twin first : Job} {name : String} {bytes : List UInt8} {scopes moreScopes : List Scope}

/-! ### Names once a file is written -/

section

variable (holds : Holds disk.items file) (free : disk.Free file)

include holds free

theorem isLinkAt_put (place : Place) : isLinkAt (disk.put file (.file bytes)) place = isLinkAt disk place := by
  rw [isLinkAt, isLinkAt, Disk.item?_put holds]
  split_ifs with own
  · cases held : disk.item? place with
    | none => rfl
    | some item =>
      obtain ⟨before, rfl⟩ := free item (own ▸ held)
      rfl
  · rfl

/-- A path names what it named before, but for the content of the file, or it named nothing. -/
theorem lookup_put (bytes : List UInt8) (path : Path) :
    (disk.put file (.file bytes)).lookup path = disk.lookup path ∨
    (∃ before, disk.lookup path = .ok (file, .file before) ∧
      (disk.put file (.file bytes)).lookup path = .ok (file, .file bytes)) ∨
    disk.lookup path = .error .missing := by
  rcases Disk.placeOf_put holds free bytes true path with same | ⟨-, before, -⟩
  · simp only [Disk.lookup, same]
    cases led : disk.placeOf true path with
    | error fault => exact .inl rfl
    | ok goal =>
      simp only [bind, Except.bind, Disk.present, Disk.item?_put holds]
      by_cases own : goal = file
      · rw [if_pos own, own]
        cases held : disk.item? file with
        | none => exact .inr (.inr rfl)
        | some item =>
          obtain ⟨before, rfl⟩ := free item held
          exact .inr (.inl ⟨before, rfl, rfl⟩)
      · rw [if_neg own]
        exact .inl rfl
  · right
    right
    rw [Disk.lookup, before]
    rfl

theorem target_put
    (stays : target disk job name = .ok none → target (disk.put file (.file bytes)) job name = .ok none) :
    SameTarget (target disk job name) (target (disk.put file (.file bytes)) job name) := by
  by_cases none : target disk job name = .ok none
  · exact .inl ((stays none).trans none.symm)
  unfold target at none ⊢
  rw [isLinkAt_put holds free]
  split
  next linked =>
    rw [if_pos linked] at none
    rcases lookup_put holds free bytes (job.path.child name) with same | ⟨before, found, written⟩ | missing
    · rw [same]
      exact .inl rfl
    · rw [found, written]
      exact .inr ⟨file, before, bytes, rfl, rfl⟩
    · rw [missing] at none
      exact absurd rfl none
  next plain =>
    rw [if_neg plain] at none
    rw [Disk.item?_put holds]
    by_cases own : job.place ++ [name] = file
    · rw [if_pos own, own]
      cases held : disk.item? file with
      | none =>
        rw [own, held] at none
        exact absurd rfl none
      | some item =>
        obtain ⟨before, rfl⟩ := free item held
        exact .inr ⟨file, before, bytes, rfl, rfl⟩
    · rw [if_neg own]
      exact .inl rfl

end

theorem filter_listedNames_put (holds : Holds disk.items (home ++ [name]))
    (shown : disk.item? (home ++ [name]) = none → admits options name = false)
    (barrier : (disk.put (home ++ [name]) (.file bytes)).barrier? job.path = disk.barrier? job.path) :
    (listedNames (disk.put (home ++ [name]) (.file bytes)) job).filter (admits options) =
      (listedNames disk job).filter (admits options) := by
  refine List.Perm.eq_of_pairwise' ((pairwise_listedNames _ job).filter _)
    ((pairwise_listedNames disk job).filter _) ?_
  refine (List.perm_ext_iff_of_nodup ((nodup_listedNames _ job).filter _)
    ((nodup_listedNames disk job).filter _)).mpr fun other => ?_
  simp only [List.mem_filter, mem_listedNames_iff, barrier, Disk.item?_put holds]
  by_cases own : job.place ++ [other] = home ++ [name]
  · obtain rfl : other = name := by simpa using (List.append_inj' own rfl).2
    rw [if_pos own, own]
    cases held : disk.item? (home ++ [other]) with
    | none => simp [shown held]
    | some item => simp
  · rw [if_neg own]

/-! ### Rules -/

theorem getLast?_append_congr {left right more others : List Rule} (before : left.getLast? = right.getLast?)
    (behind : more.getLast? = others.getLast?) : (left ++ more).getLast? = (right ++ others).getLast? := by
  rw [List.getLast?_append, List.getLast?_append, before, behind]

theorem Agree.scopesIn_below (agree : Agree job.scopes twin.scopes) (below : twin.below = job.below)
    (inside : job.below ≠ []) (options others : Options) (rules : List Rule) :
    Agree (scopesIn options job rules) (scopesIn others twin rules) := by
  intro path isDir
  have notRoot : ¬ job.below.isEmpty = true := by simpa using inside
  rw [flatMap_scopesIn, flatMap_scopesIn, below, if_neg notRoot, if_neg notRoot, List.append_nil, List.append_nil]
  exact getLast?_append_congr (agree path isDir) rfl

/-- The last rule of those that name something is the same. -/
def SameLast (left right : List Rule) : Prop :=
  ∀ named : Rule → Bool, (left.filter named).getLast? = (right.filter named).getLast?

/-- Rules that stand twice decide as the second time. -/
theorem sameLast_twice (rules more : List Rule) :
    SameLast (rules ++ rules ++ more) ((rules ++ more) ++ (rules ++ more)) := by
  intro named
  rw [List.append_assoc, List.filter_append, List.filter_append (rules ++ more)]
  rcases ((rules ++ more).filter named).eq_nil_or_concat with nothing | ⟨front, last, some⟩
  · rw [List.filter_append] at nothing
    simp [(List.append_eq_nil_iff.mp nothing).1]
  · rw [some, List.concat_eq_append, ← List.append_assoc, ← List.append_assoc, List.getLast?_concat,
      List.getLast?_concat]

/-- At the root the excluded lines decide as rules at the end of its ignore files do. -/
theorem Agree.scopesIn_root {rules written : List Rule} (agree : Agree job.scopes twin.scopes)
    (below : twin.below = job.below) (root : job.below = [])
    (same : SameLast (rules ++ (excludeScope options).rules) written) :
    Agree (scopesIn options job rules) (scopesIn { options with excluded := [] } twin written) := by
  intro path isDir
  have none : (excludeScope { options with excluded := [] }).matching path isDir = [] :=
    matching_excludeScope rfl path isDir
  have last := same (·.names path isDir)
  rw [List.filter_append] at last
  rw [flatMap_scopesIn, flatMap_scopesIn, below, root, none, ite_self, List.append_nil, if_pos List.isEmpty_nil,
    List.append_assoc]
  exact getLast?_append_congr (agree path isDir) last

/-! ### The file with its new lines -/

/-- The `.ignore` file of a root can take lines, and they can be read there: it is missing and a walk would not show
it, or it is text. -/
structure TakesLines (disk : Disk) (options : Options) (root : Path) (place : Place) : Prop where
  content : disk.item? (place ++ [".ignore"]) = none ∧ options.hidden = false ∨
    ∃ text, disk.item? (place ++ [".ignore"]) = some (.file (Text.encodeUtf8 text))
  leads : disk.placeOf true (root.child ".ignore") = .ok (place ++ [".ignore"])
  readable : place ++ [".ignore"] ∉ disk.sealed

theorem isName_ignore : IsName ".ignore" := by decide

namespace TakesLines

variable (takes : TakesLines disk options root place)

include takes

theorem free : disk.Free (place ++ [".ignore"]) := by
  rintro item held
  rcases takes.content with ⟨absent, -⟩ | ⟨text, present⟩
  · rw [absent] at held
    cases held
  · exact ⟨_, Option.some.inj (held.symm.trans present)⟩

theorem holds (isDir : disk.item? place = some .directory) : Holds disk.items (place ++ [".ignore"]) :=
  takes.free.holds isDir isName_ignore

theorem unshown (absent : disk.item? (place ++ [".ignore"]) = none) : admits options ".ignore" = false := by
  rcases takes.content with ⟨-, hidden⟩ | ⟨text, present⟩
  · have listed : ".ignore" ∈ ignoreFileNames := by decide
    simp [admits, hidden, startsWith_of_ignoreFile listed]
  · rw [present] at absent
    cases absent

end TakesLines

theorem readIgnoreFile_of_text {text : List Char} (read : disk.readBytes path = .ok (Text.encodeUtf8 text)) :
    readIgnoreFile disk path = (rulesOf text, []) := by
  rw [readIgnoreFile, Disk.readText, read, Disk.textOf, Text.decodeUtf8_eq_ok_iff.mpr rfl]
  rfl

theorem readBytes_of_leads (leads : disk.placeOf true path = .ok file) : disk.readBytes path = disk.bytesAt file := by
  rw [Disk.readBytes, leads]
  rfl

/-- Through each name that leads to the file, a scan reads its rules, and those of the new lines behind them. -/
theorem exists_rules (isDir : disk.item? place = some .directory) (takes : TakesLines disk options root place)
    {lines : List String} (whole : ∀ line ∈ lines, ∀ c ∈ line.toList, Text.isLineEnd c = false) :
    ∃ rules, ∀ name, disk.placeOf true (root.child name) = .ok (place ++ [".ignore"]) →
      readIgnoreFile disk (root.child name) = (rules, []) ∧
      readIgnoreFile (disk.addLines (place ++ [".ignore"]) lines) (root.child name) =
        (rules ++ parseLines (lines.map String.toList), []) := by
  have unsealed : disk.sealed.contains (place ++ [".ignore"]) = false := by simpa using takes.readable
  obtain ⟨text, held, reads⟩ : ∃ text,
      (disk.bytesAt (place ++ [".ignore"])).toOption.getD [] = Text.encodeUtf8 text ∧
      ∀ name, disk.placeOf true (root.child name) = .ok (place ++ [".ignore"]) →
        readIgnoreFile disk (root.child name) = (rulesOf text, []) := by
    rcases takes.content with ⟨absent, -⟩ | ⟨text, present⟩
    · have missing : disk.bytesAt (place ++ [".ignore"]) = .error .missing := by rw [Disk.bytesAt, absent]
      refine ⟨[], by rw [missing]; rfl, fun name leads => ?_⟩
      exact readIgnoreFile_of_missing ((readBytes_of_leads leads).trans missing)
    · have bytes : disk.bytesAt (place ++ [".ignore"]) = .ok (Text.encodeUtf8 text) := by
        rw [Disk.bytesAt, present]
        exact if_neg (by simpa using unsealed)
      refine ⟨text, by rw [bytes]; rfl, fun name leads => ?_⟩
      exact readIgnoreFile_of_text ((readBytes_of_leads leads).trans bytes)
  obtain ⟨added, written, rules⟩ := rulesOf_addedLines text whole
  refine ⟨rulesOf text, fun name leads => ⟨reads name leads, ?_⟩⟩
  rw [← rules]
  refine readIgnoreFile_of_text ?_
  have holds := takes.holds isDir
  rw [Disk.addLines, held, readBytes_of_leads ((Disk.placeOf_put_eq_ok holds takes.free).mpr leads), Disk.bytesAt,
    Disk.item?_put holds, if_pos rfl, Disk.sealed_put, written]
  exact if_neg (by simpa using unsealed)

/-! ### What a scan follows -/

/-- A scan reads the ignore files of the directory, by this path: it is in the checkout above the root, or the scan
expands a job for it. -/
def Reads (disk : Disk) (options : Options) (root : Path) (place : Place) (path : Path) (directory : Place) : Prop :=
  (∃ above, checkoutAbove disk ⟨1, place⟩ = .ok above ∧ path ∈ above ∧ directory = path.parts) ∨
    ∃ job, Expands disk options root job ∧ path = job.path ∧ directory = job.place

/-- Nothing else that a scan follows leads to the `.ignore` file of its root. Once the file is written the root is in
the same checkout, each other ignore file that is a link gives the same, unless it lies beside the file and leads
to it, and a link that led to nothing still does. -/
structure Unshared (disk written : Disk) (options : Options) (root : Path) (place : Place) : Prop where
  checkout : checkoutAbove written ⟨1, place⟩ = checkoutAbove disk ⟨1, place⟩
  ignoreFiles : ∀ path directory name target, Reads disk options root place path directory →
    name ∈ ignoreFileNames → disk.item? (directory ++ [name]) = some (.link target) →
    readIgnoreFile written (path.child name) = readIgnoreFile disk (path.child name) ∨
      directory = place ∧ disk.placeOf true (root.child name) = .ok (place ++ [".ignore"])
  dangling : options.followLinks = true → ∀ job name link, Expands disk options root job →
    name ∈ listedNames disk job → admits options name = true →
    disk.item? (job.place ++ [name]) = some (.link link) → target disk job name = .ok none →
    target written job name = .ok none

section

variable {lines : List String} (found : disk.lookup root = .ok (place, .directory))
  (takes : TakesLines disk options root place)
  (unshared : Unshared disk (disk.addLines (place ++ [".ignore"]) lines) options root place)

include found takes

theorem item?_addLines (different : directory ≠ place ++ [".ignore"]) :
    (disk.addLines (place ++ [".ignore"]) lines).item? directory = disk.item? directory := by
  rw [Disk.addLines, Disk.item?_put (takes.holds (Disk.lookup_eq_ok found).2), if_neg different]

theorem directory_addLines (isDir : disk.item? directory = some .directory) :
    (disk.addLines (place ++ [".ignore"]) lines).item? directory = some .directory :=
  (item?_addLines found takes (takes.free.not_directory isDir)).trans isDir

/-- The path of a directory that a scan reads goes down to it on both disks. -/
theorem Reads.bothReach (reads : Reads disk options root place path directory) :
    (disk.addLines (place ++ [".ignore"]) lines).BothReach disk path directory := by
  obtain ⟨leads, isRoot⟩ := Disk.lookup_eq_ok found
  refine ⟨?_, Disk.sealed_put ..⟩
  rcases reads with ⟨above, searched, listed, rfl⟩ | ⟨job, expands, rfl, rfl⟩
  · obtain ⟨lead, -, whole⟩ := exists_lead searched listed
    have isDir : disk.item? path.parts = some .directory := Disk.directory_of_append (whole ▸ isRoot)
    exact ⟨⟨1, []⟩, [], path.parts, Disk.reaches_real (directory_addLines found takes isDir),
      Disk.reaches_real isDir, real_of_checkoutAbove searched listed, rfl⟩
  · obtain ⟨origin, above, parts, reaches, called, lies⟩ := expands.located
    refine ⟨origin, above, parts, ⟨?_, directory_addLines found takes reaches.isDir⟩, reaches, called, lies⟩
    exact (Disk.placeOf_put_eq_ok (takes.holds isRoot) takes.free).mpr reaches.leads

theorem readIgnoreFile_addLines (reads : Reads disk options root place path directory)
    (different : directory ++ [name] ≠ place ++ [".ignore"]) (listed : name ∈ ignoreFileNames)
    (links : ∀ target, disk.item? (directory ++ [name]) = some (.link target) →
      readIgnoreFile (disk.addLines (place ++ [".ignore"]) lines) (path.child name) =
        readIgnoreFile disk (path.child name)) :
    readIgnoreFile (disk.addLines (place ++ [".ignore"]) lines) (path.child name) =
      readIgnoreFile disk (path.child name) :=
  readIgnoreFile_of_same (reads.bothReach found takes) listed (item?_addLines found takes different) links

include unshared

theorem readRules_addLines (elsewhere : directory ≠ place) (reads : Reads disk options root place path directory) :
    readRules (disk.addLines (place ++ [".ignore"]) lines) path = readRules disk path := by
  refine readRules_congr fun name listed => ?_
  refine readIgnoreFile_addLines found takes reads (fun whole => elsewhere (List.append_inj_left' whole rfl)) listed ?_
  intro target linked
  refine (unshared.ignoreFiles path directory name target reads listed linked).resolve_right ?_
  exact fun beside => elsewhere beside.1

theorem readRules_addLines_root (whole : ∀ line ∈ lines, ∀ c ∈ line.toList, Text.isLineEnd c = false)
    (reads : Reads disk options root place root place) :
    (readRules (disk.addLines (place ++ [".ignore"]) lines) root).2 = (readRules disk root).2 ∧
    SameLast ((readRules disk root).1 ++ parseLines (lines.map String.toList))
      (readRules (disk.addLines (place ++ [".ignore"]) lines) root).1 := by
  obtain ⟨rules, through⟩ := exists_rules (Disk.lookup_eq_ok found).2 takes whole
  obtain ⟨own, ownWritten⟩ := through ".ignore" takes.leads
  have beside : readIgnoreFile (disk.addLines (place ++ [".ignore"]) lines) (root.child ".gitignore") =
      readIgnoreFile disk (root.child ".gitignore") ∨
      disk.placeOf true (root.child ".gitignore") = .ok (place ++ [".ignore"]) := by
    by_cases leads : disk.placeOf true (root.child ".gitignore") = .ok (place ++ [".ignore"])
    · exact .inr leads
    refine .inl (readIgnoreFile_addLines found takes reads (by simp) (by decide) fun target linked => ?_)
    refine (unshared.ignoreFiles root place _ target reads (by decide) linked).resolve_right ?_
    exact fun beside => leads beside.2
  have split : ∀ disk : Disk, readRules disk root =
      ((readIgnoreFile disk (root.child ".gitignore")).1 ++ (readIgnoreFile disk (root.child ".ignore")).1,
        (readIgnoreFile disk (root.child ".gitignore")).2 ++ (readIgnoreFile disk (root.child ".ignore")).2) := by
    intro disk
    simp [readRules, ignoreFileNames]
  rw [split disk, split (disk.addLines _ _), own, ownWritten]
  rcases beside with same | leads
  · rw [same]
    refine ⟨rfl, fun named => ?_⟩
    rw [List.append_assoc]
  · obtain ⟨first, firstWritten⟩ := through ".gitignore" leads
    rw [first, firstWritten]
    exact ⟨rfl, sameLast_twice _ _⟩

theorem start_addLines :
    start (disk.addLines (place ++ [".ignore"]) lines) { options with excluded := [] } root =
      start disk options root := by
  obtain ⟨leads, isDir⟩ := Disk.lookup_eq_ok found
  have alsoFound : (disk.addLines (place ++ [".ignore"]) lines).lookup root = .ok (place, .directory) := by
    have alsoLeads : (disk.addLines (place ++ [".ignore"]) lines).placeOf true root = .ok place :=
      (Disk.placeOf_put_eq_ok (takes.holds isDir) takes.free).mpr leads
    rw [Disk.lookup, alsoLeads]
    show Disk.present _ place = _
    rw [Disk.present, directory_addLines found takes isDir]
  have scopes : scopesAbove (disk.addLines (place ++ [".ignore"]) lines) ⟨1, place⟩ = scopesAbove disk ⟨1, place⟩ := by
    rw [scopesAbove, scopesAbove, unshared.checkout]
    cases searched : checkoutAbove disk ⟨1, place⟩ with
    | error => rfl
    | ok above =>
      have same : ∀ directory ∈ above, scopeAbove (disk.addLines (place ++ [".ignore"]) lines) ⟨1, place⟩ directory =
          scopeAbove disk ⟨1, place⟩ directory := by
        intro directory listed
        have elsewhere : directory.parts ≠ place := fun same =>
          ne_of_mem_checkoutAbove searched listed [] (by simp [same])
        have rules := readRules_addLines found takes unshared elsewhere (.inl ⟨above, searched, listed, rfl⟩)
        rw [scopeAbove, scopeAbove, rules]
      have scopes := List.flatMap_congr fun directory listed => congrArg Prod.fst (same directory listed)
      have warnings := List.flatMap_congr fun directory listed => congrArg Prod.snd (same directory listed)
      simp only [Except.map, scopes, warnings]
  rw [start_of_directory _ alsoFound, start_of_directory _ found, rootJob, rootJob, scopes]

end

theorem sameDirectory_addLines {visited : List Place} {logs : List Log.Record}
    (begins : start disk options root = .ok (.tree first visited logs))
    (takes : TakesLines disk options root first.place)
    (whole : ∀ line ∈ options.excluded, ∀ c ∈ line.toList, Text.isLineEnd c = false)
    (unshared : Unshared disk (disk.addLines (first.place ++ [".ignore"]) options.excluded) options root first.place)
    (expands : Expands disk options root job) (alike : Twin job twin) :
    SameDirectory disk (disk.addLines (first.place ++ [".ignore"]) options.excluded) options
      { options with excluded := [] } job twin := by
  obtain ⟨found, made, -⟩ := start_tree begins
  obtain ⟨called, -, above, opens⟩ := opens_of_rootJob made
  have holds := takes.holds (Disk.lookup_eq_ok found).2
  have reads : Reads disk options root first.place job.path job.place := .inr ⟨job, expands, rfl, rfl⟩
  have both : (disk.addLines (first.place ++ [".ignore"]) options.excluded).BothReach disk job.path job.place :=
    reads.bothReach found takes
  obtain ⟨failures, agree⟩ :
      (readRules (disk.addLines (first.place ++ [".ignore"]) options.excluded) job.path).2 =
        (readRules disk job.path).2 ∧
      Agree (scopesAt disk options job) (scopesAt (disk.addLines (first.place ++ [".ignore"]) options.excluded)
        { options with excluded := [] } twin) := by
    unfold scopesAt
    rw [alike.path]
    rcases expands.cases begins with rfl | ⟨-, elsewhere, below⟩
    · rw [called] at reads ⊢
      obtain ⟨failures, rules⟩ := readRules_addLines_root found takes unshared whole reads
      exact ⟨failures, alike.scopes.scopesIn_root alike.below opens.top rules⟩
    · rw [readRules_addLines found takes unshared elsewhere reads]
      exact ⟨rfl, alike.scopes.scopesIn_below alike.below below _ _ _⟩
  have barrier : (disk.addLines (first.place ++ [".ignore"]) options.excluded).barrier? job.path =
      disk.barrier? job.path := by
    rw [Disk.barrier?, Disk.barrier?, both.placeOf_eq, Disk.addLines, Disk.locked_put]
  refine ⟨failures, agree, barrier, filter_listedNames_put holds takes.unshown barrier,
    fun name listed admitted => ⟨isLinkAt_put holds takes.free _, fun followed => ?_, fun place leads => ?_⟩⟩
  · refine target_put holds takes.free fun nothing => ?_
    obtain ⟨-, present⟩ := mem_listedNames_iff.mp listed
    obtain ⟨item, held⟩ := Option.isSome_iff_exists.mp present
    cases item with
    | link goal =>
      have links : options.followLinks = true := by simpa [isLinkAt, held] using followed
      exact unshared.dangling links job name goal expands listed admitted held nothing
    | file | directory | socket =>
      rw [target_eq held (fun _ => Item.noConfusion)] at nothing
      cases nothing
  · rcases target_cases leads with reached | ⟨rfl, isDir⟩
    · have arrives := (Disk.lookup_eq_ok reached).1
      exact ((Disk.placeOf_put_eq_ok holds takes.free).mpr arrives).trans arrives.symm
    · exact (both.placeOf_child (Disk.isName_of_item? isDir)
        (Disk.not_link_of_directory (directory_addLines found takes isDir))
        (Disk.not_link_of_directory isDir)).1

/-- A scan with excluded lines hands out what a scan without them does once they are added to the root's `.ignore`
file. If one fails to find the checkout of the root, the other fails alike. -/
theorem excluded_as_lines (found : disk.lookup root = .ok (place, .directory))
    (takes : TakesLines disk options root place)
    (whole : ∀ line ∈ options.excluded, ∀ c ∈ line.toList, Text.isLineEnd c = false)
    (unshared : Unshared disk (disk.addLines (place ++ [".ignore"]) options.excluded) options root place) :
    (∃ crash, MarkFails disk ⟨1, place⟩ crash ∧ scan disk options root = .error crash ∧
      scan (disk.addLines (place ++ [".ignore"]) options.excluded) { options with excluded := [] } root =
        .error crash) ∨
    ∃ batches, scan disk options root = .ok batches ∧
      scan (disk.addLines (place ++ [".ignore"]) options.excluded) { options with excluded := [] } root =
        .ok batches := by
  have alsoBegins := start_addLines found takes unshared
  rcases start_cases options found with ⟨crash, fails, begins⟩ | ⟨first, visited, logs, begins⟩
  · rw [begins] at alsoBegins
    refine .inl ⟨crash, fails, ?_, ?_⟩
    · rw [scan, begins]
      rfl
    · rw [scan, alsoBegins]
      rfl
  · obtain rfl : place = first.place := by
      obtain ⟨again, -, -⟩ := start_tree begins
      rw [found] at again
      cases again
      rfl
    have same : scan (disk.addLines (first.place ++ [".ignore"]) options.excluded) { options with excluded := [] }
        root = scan disk options root :=
      scan_twin ⟨rfl, rfl⟩ begins (alsoBegins.trans begins) (Disk.length_items_put _ _ _)
        fun _ _ => sameDirectory_addLines begins takes whole unshared
    rw [same, scan, begins]
    exact .inr ⟨_, rfl, rfl⟩

/-- A root whose `.gitignore` is a link to its `.ignore`, which says `a` with no line end, and a directory in it that
takes `b` in again. -/
def overridden : Disk where
  items := [(["r"], .directory), (["r", ".gitignore"], .link "/r/.ignore"), (["r", ".ignore"], .file [97]),
    (["r", "b"], .file []), (["r", "d"], .directory), (["r", "d", ".gitignore"], .file [33, 98]),
    (["r", "d", "b"], .file [])]
  here := []
  home := "/"
  locked := []
  sealed := []
  tree := by decide

/-- Links are followed, and `b` is excluded. -/
def sparing : Options := { followLinks := true, excluded := ["b"] }

theorem unshared_overridden {written : Disk}
    (checkout : checkoutAbove written ⟨1, ["r"]⟩ = checkoutAbove overridden ⟨1, ["r"]⟩) :
    Unshared overridden written sparing ⟨1, ["r"]⟩ ["r"] := by
  -- there is but one link on the disk
  have only : ∀ directory name target, overridden.item? (directory ++ [name]) = some (.link target) →
      directory = ["r"] ∧ name = ".gitignore" := by
    intro directory name target linked
    have listed := Disk.mem_of_item? linked
    have whole : directory ++ [name] = ["r"] ++ [".gitignore"] := by
      simp only [overridden, List.mem_cons, Prod.mk.injEq, reduceCtorEq, and_false, false_or, List.not_mem_nil,
        or_false] at listed
      exact listed.1
    obtain ⟨rfl, same⟩ := List.append_inj' whole rfl
    exact ⟨rfl, by simpa using same⟩
  refine ⟨checkout, fun path directory name target _ _ linked => .inr ?_, ?_⟩
  · obtain ⟨rfl, rfl⟩ := only directory name target linked
    exact ⟨rfl, by decide +kernel⟩
  · intro _ job name link _ _ admitted linked
    obtain ⟨-, rfl⟩ := only job.place name link linked
    have unshown : admits sparing ".gitignore" = false := by decide +kernel
    rw [unshown] at admitted
    cases admitted

theorem excluded_as_lines_overridden :
    overridden.lookup ⟨1, ["r"]⟩ = .ok (["r"], .directory) ∧
    TakesLines overridden sparing ⟨1, ["r"]⟩ ["r"] ∧
    Unshared overridden (overridden.addLines ["r", ".ignore"] ["b"]) sparing ⟨1, ["r"]⟩ ["r"] ∧
    ∃ batches, scan overridden sparing ⟨1, ["r"]⟩ = .ok batches ∧
      scan (overridden.addLines ["r", ".ignore"] ["b"]) { followLinks := true } ⟨1, ["r"]⟩ = .ok batches ∧
      batches.flatMap Batch.entries = [.file ⟨1, ["r", "d", "b"]⟩] := by
  have found : overridden.lookup ⟨1, ["r"]⟩ = .ok (["r"], .directory) := by decide +kernel
  have takes : TakesLines overridden sparing ⟨1, ["r"]⟩ ["r"] :=
    ⟨.inr ⟨['a'], by decide +kernel⟩, by decide +kernel, by decide⟩
  have whole : ∀ line ∈ sparing.excluded, ∀ c ∈ line.toList, Text.isLineEnd c = false := by
    simp [sparing]
    decide
  have unshared : Unshared overridden (overridden.addLines ["r", ".ignore"] ["b"]) sparing ⟨1, ["r"]⟩ ["r"] :=
    unshared_overridden (by decide +kernel)
  have entries : (scan overridden sparing ⟨1, ["r"]⟩).map (fun batches => batches.flatMap Batch.entries) =
      .ok [.file ⟨1, ["r", "d", "b"]⟩] := by decide +kernel
  rcases excluded_as_lines found takes whole unshared with ⟨crash, -, fails, -⟩ | ⟨batches, scanned, scannedWritten⟩
  · rw [fails] at entries
    cases entries
  · rw [scanned] at entries
    exact ⟨found, takes, unshared, batches, scanned, scannedWritten, Except.ok.inj entries⟩

/-- A directory whose `.ignore` is a link to the empty one of the root. -/
def passedOn : Disk where
  items := [(["r"], .directory), (["r", ".ignore"], .file []), (["r", "sub"], .directory),
    (["r", "sub", ".ignore"], .link "/r/.ignore"), (["r", "sub", "x"], .file []), (["r", "x"], .file [])]
  here := []
  home := "/"
  locked := []
  sealed := []
  tree := by decide

/-- There a line that names a file of the root names one of the directory as well once it stands in the file. -/
theorem excluded_line_passed_on :
    passedOn.lookup ⟨1, ["r"]⟩ = .ok (["r"], .directory) ∧
    TakesLines passedOn { excluded := ["/x"] } ⟨1, ["r"]⟩ ["r"] ∧
    (scan passedOn { excluded := ["/x"] } ⟨1, ["r"]⟩).map (fun batches => batches.flatMap Batch.entries) =
      .ok [.file ⟨1, ["r", "sub", "x"]⟩] ∧
    (scan (passedOn.addLines ["r", ".ignore"] ["/x"]) {} ⟨1, ["r"]⟩).map
        (fun batches => batches.flatMap Batch.entries) = .ok [] := by
  refine ⟨?_, ⟨.inr ⟨[], ?_⟩, ?_, by decide⟩, ?_, ?_⟩ <;> decide +kernel

end Walk

end SyntaxTally
