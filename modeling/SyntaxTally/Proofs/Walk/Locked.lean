import SyntaxTally.Proofs.Walk.Part

/-!
# Directories that cannot be listed

A scan that passes hidden names over hands out all that lies at or beneath a directory as one stretch
(`filter_holds_eq`). When directories are locked, the scan comes to the same directories up to the first locked one
on each way, and there it hands out the ignore files that cannot be read and the directory itself in place of
that stretch (`sealed_of_lock`).
-/
namespace SyntaxTally

open Files Ignore

/-! ### The stretch of a directory -/

namespace Walk

variable {disk : Disk} {options : Options} {first : Job} {parts : List String}

theorem startsWith_of_ignoreFile {name : String} (listed : name ∈ ignoreFileNames) :
    name.startsWith "." = true := by
  simp only [ignoreFileNames, List.mem_cons, List.not_mem_nil, or_false] at listed
  rcases listed with rfl | rfl <;> decide +kernel

/-- No directory on the way of a walk below its root is called like an ignore file. -/
theorem Entered.not_ignoreFile (shown : options.hidden = false)
    (entered : Entered disk options first parts) {name : String} (member : name ∈ parts) :
    name ∉ ignoreFileNames := by
  intro listed
  obtain ⟨above, rest, split⟩ := List.append_of_mem member
  rcases (entered.passes split).shown with hidden | plain
  · rw [shown] at hidden
    cases hidden
  · rw [startsWith_of_ignoreFile listed] at plain
    cases plain

/-- What a directory outside another one gives is neither at nor beneath that. -/
theorem not_holds_of_outside {rest : List String} {entry : Entry} (links : options.followLinks = false)
    (top : first.below = []) (shown : options.hidden = false)
    (isDir : disk.item? first.place = some .directory) (entered : Entered disk options first parts)
    (other : Entered disk options first rest) (outside : ¬ parts <+: rest)
    (given : entry ∈ ownEntries disk options (jobAt disk options first rest)) :
    (first.path.under parts).holds entry.path = false := by
  apply Bool.eq_false_iff.mpr
  intro holds
  obtain ⟨name, -, listed, last, -⟩ :=
    failure_of_outside links top (entered.isDir isDir) other outside given holds
  exact entered.not_ignoreFile shown (List.mem_of_getLast? last) listed

/-- What a walk reaches is split by a directory that it enters: first directories outside it, then the directory
and those in it, then directories outside it again. -/
structure Block (disk : Disk) (options : Options) (first : Job) (parts : List String)
    (before below after : List Job) : Prop where
  whole : reached disk options [first] =
    before ++ jobAt disk options first parts :: below ++ after
  alone : reached disk options [jobAt disk options first parts] =
    jobAt disk options first parts :: below
  inside : ∀ job ∈ below, ∃ rest, Entered disk options first rest ∧
    job = jobAt disk options first rest ∧ parts <+: rest ∧ rest ≠ parts
  outside : ∀ job ∈ before ++ after, ∃ rest, Entered disk options first rest ∧
    job = jobAt disk options first rest ∧ ¬ parts <+: rest

theorem exists_block (links : options.followLinks = false) (top : first.below = [])
    (entered : Entered disk options first parts) :
    ∃ before below after, Block disk options first parts before below after := by
  obtain ⟨before, after, whole⟩ := reached_split links top entered
  have block : reached disk options [jobAt disk options first parts] = _ :=
    reached_cons links (jobAt disk options first parts) []
  rw [List.append_nil] at block
  refine ⟨before, _, after, by rw [whole, block], block, fun job listed => ?_,
    fun job => outside_of_split links top whole⟩
  have also : job ∈ reached disk options [first] := by
    rw [whole, block]
    simp [listed]
  obtain ⟨rest, otherEntered, rfl⟩ := (mem_reached_root_iff links top).mp also
  obtain ⟨child, inside, down⟩ := (mem_reached_iff links).mp listed
  -- the way to it leads through one of the subdirectories
  obtain ⟨name, -, -, rfl⟩ := (mem_subjobs_iff links (entered.stands top)).mp inside
  have longer : parts ++ [name] <+: rest := by
    have above := down.place links
    rw [← jobAt_append, (otherEntered.stands top).lies, jobAt_append, childJob, (entered.stands top).lies,
      List.append_assoc] at above
    exact (List.prefix_append_right_inj first.place).mp above
  refine ⟨rest, otherEntered, rfl, (List.prefix_append parts [name]).trans longer, ?_⟩
  rintro rfl
  have short := longer.length_le
  simp at short

section

variable {before below after : List Job} (links : options.followLinks = false) (top : first.below = [])
  (entered : Entered disk options first parts) (block : Block disk options first parts before below after)

include links top entered block

theorem Block.holds {entry : Entry}
    (given : entry ∈ (jobAt disk options first parts :: below).flatMap (ownEntries disk options)) :
    (first.path.under parts).holds entry.path = true := by
  obtain ⟨job, listed, given⟩ := List.mem_flatMap.mp given
  rcases List.mem_cons.mp listed with rfl | lower
  · exact holds_of_inside links top entered (List.prefix_refl _) given
  · obtain ⟨rest, other, rfl, above, -⟩ := block.inside job lower
    exact holds_of_inside links top other above given

theorem Block.not_holds (shown : options.hidden = false) (isDir : disk.item? first.place = some .directory)
    {entry : Entry} (given : entry ∈ (before ++ after).flatMap (ownEntries disk options)) :
    (first.path.under parts).holds entry.path = false := by
  obtain ⟨job, listed, given⟩ := List.mem_flatMap.mp given
  obtain ⟨rest, other, rfl, apart⟩ := block.outside job listed
  exact not_holds_of_outside links top shown isDir entered other apart given

end

theorem reached_eq_map (disk : Disk) (links : options.followLinks = false) (top : first.below = []) :
    ∃ directories : List (List String),
      reached disk options [first] = directories.map (jobAt disk options first) ∧
      directories.Nodup ∧ ∀ parts, parts ∈ directories ↔ Entered disk options first parts := by
  have members : ∀ job, job ∈ reached disk options [first] ↔
      ∃ parts, Entered disk options first parts ∧ job = jobAt disk options first parts :=
    fun job => mem_reached_root_iff links top
  have once := nodup_reached links disk (List.pairwise_singleton Apart first)
  generalize reached disk options [first] = jobs at members once
  have called : ∀ parts, Entered disk options first parts →
      (jobAt disk options first parts).place.drop first.place.length = parts := by
    intro parts entered
    rw [(entered.stands top).lies, List.drop_left]
  have back : ∀ job ∈ jobs, jobAt disk options first (job.place.drop first.place.length) = job ∧
      first.place ++ job.place.drop first.place.length = job.place := by
    intro job listed
    obtain ⟨parts, entered, rfl⟩ := (members _).mp listed
    rw [called parts entered]
    exact ⟨rfl, (entered.stands top).lies.symm⟩
  refine ⟨jobs.map fun job => job.place.drop first.place.length, ?_, ?_, fun parts => ?_⟩
  · rw [List.map_map]
    exact (List.map_id jobs).symm.trans (List.map_congr_left fun job listed => (back job listed).1.symm)
  · refine List.Nodup.of_map (first.place ++ ·) ?_
    rw [List.map_map]
    exact (List.map_congr_left fun job listed => (back job listed).2) ▸ once
  · simp only [List.mem_map]
    constructor
    · rintro ⟨job, listed, rfl⟩
      obtain ⟨parts, entered, rfl⟩ := (members _).mp listed
      rwa [called parts entered]
    · intro entered
      exact ⟨_, (members _).mpr ⟨parts, entered, rfl⟩, called parts entered⟩

/-- All that a scan hands out at or beneath a directory is what it hands out from there on. -/
theorem filter_holds_eq (links : options.followLinks = false) (top : first.below = [])
    (shown : options.hidden = false) (isDir : disk.item? first.place = some .directory)
    (entered : Entered disk options first parts) :
    ((reached disk options [first]).flatMap (ownEntries disk options)).filter
        (fun entry => (first.path.under parts).holds entry.path) =
      (reached disk options [jobAt disk options first parts]).flatMap (ownEntries disk options) := by
  obtain ⟨before, below, after, block⟩ := exists_block links top entered
  have outside : ((before ++ after).flatMap (ownEntries disk options)).filter
      (fun entry => (first.path.under parts).holds entry.path) = [] :=
    List.filter_eq_nil_iff.mpr fun entry given => by simp [block.not_holds links top entered shown isDir given]
  rw [List.flatMap_append, List.filter_append, List.append_eq_nil_iff] at outside
  rw [block.whole, block.alone, List.flatMap_append, List.flatMap_append, List.filter_append, List.filter_append,
    outside.1, outside.2, List.filter_eq_self.mpr fun entry given => block.holds links top entered given]
  simp

end Walk

/-! ### Locking -/

/-- The disk on which these directories cannot be listed either. -/
def Files.Disk.lock (disk : Disk) (directories : List String) : Disk :=
  { disk with locked := directories ++ disk.locked }

namespace Files.Disk

theorem advance_congr {left right : Disk} (items : left.item? = right.item?) (sealed : left.sealed = right.sealed)
    (last : Bool) (onLink : Place → List String → Except Fault Place) (place : Place) (parts : List String) :
    left.advance last onLink place parts = right.advance last onLink place parts := by
  induction parts generalizing place with
  | nil => rfl
  | cons name rest ih =>
    rw [advance, advance, items, sealed]
    simp only [ih]

theorem follow_congr {left right : Disk} (items : left.item? = right.item?)
    (sealed : left.sealed = right.sealed) : left.follow = right.follow := by
  funext last links
  induction links with
  | zero =>
    funext place parts
    exact advance_congr items sealed last _ place parts
  | succ links ih =>
    funext place parts
    rw [follow, follow, ih]
    exact advance_congr items sealed last _ place parts

variable (disk : Disk) (locked : List String)

theorem placeOf_lock : (disk.lock locked).placeOf = disk.placeOf := by
  have same : (disk.lock locked).follow = disk.follow := follow_congr rfl rfl
  funext followLast path
  rw [placeOf, placeOf, same]
  rfl

theorem lookup_lock : (disk.lock locked).lookup = disk.lookup := by
  funext path
  rw [lookup, lookup, placeOf_lock]
  rfl

theorem barrier?_lock (path : Path) :
    (disk.lock locked).barrier? path = if path.toString ∈ locked then some .denied else disk.barrier? path := by
  rw [barrier?, barrier?, placeOf_lock]
  by_cases refused : path.toString ∈ locked <;> simp [lock, refused]

end Files.Disk

namespace Walk

/-! ### A disk and its locked copy -/

theorem childJob_congr {left right : Disk} {job : Job}
    (rules : (readRules left job.path).1 = (readRules right job.path).1) (options : Options) :
    childJob left options job = childJob right options job := by
  funext name
  simp only [childJob, scopesAt, rules]

section

variable (disk : Disk) (locked : List String)

theorem readRules_lock : readRules (disk.lock locked) = readRules disk := by
  have same : readIgnoreFile (disk.lock locked) = readIgnoreFile disk := by
    funext file
    rw [readIgnoreFile, readIgnoreFile, Disk.readText, Disk.readText, Disk.readBytes, Disk.readBytes,
      Disk.placeOf_lock]
    rfl
  funext path
  rw [readRules, readRules, same]

/-- Whether a directory can be listed is nothing to the start of a walk. -/
theorem start_lock (options : Options) (root : Path) :
    start (disk.lock locked) options root = start disk options root := by
  have tops : isTop (disk.lock locked) = isTop disk := by
    funext directory
    rw [isTop, isTop, Disk.exists?, Disk.exists?, Disk.asks, Disk.asks, Disk.lookup_lock]
  have upwards : upToTop (disk.lock locked) = upToTop disk := by
    funext directories
    induction directories with
    | nil => rfl
    | cons directory directories ih => rw [upToTop, upToTop, tops, ih]
  have checkout : checkoutAbove (disk.lock locked) = checkoutAbove disk := by
    funext real
    rw [checkoutAbove, checkoutAbove, tops, upwards]
  simp only [start, rootJob, scopesAbove, scopeAbove, Disk.lookup_lock, checkout, readRules_lock]

theorem jobAt_lock (options : Options) : jobAt (disk.lock locked) options = jobAt disk options := by
  have same : childJob (disk.lock locked) options = childJob disk options :=
    funext fun job => childJob_congr (by rw [readRules_lock]) options
  funext first parts
  rw [jobAt, jobAt, same]

theorem scopesOver_lock (options : Options) (first : Job) (parts : List String) :
    scopesOver (disk.lock locked) options first parts = scopesOver disk options first parts := by
  simp only [scopesOver, ownScope, readRules_lock]

theorem scopesAt_lock (options : Options) (job : Job) :
    scopesAt (disk.lock locked) options job = scopesAt disk options job := by
  rw [scopesAt, scopesAt, readRules_lock]

theorem listedNames_lock (job : Job) :
    listedNames (disk.lock locked) job = if job.path.toString ∈ locked then [] else listedNames disk job := by
  rw [listedNames, listedNames, Disk.barrier?_lock]
  split
  · rfl
  · rfl

end

variable {disk : Disk} {options : Options} {first : Job} {parts : List String}
  {locked : List String}

theorem passes_lock_iff {name : String} {isDir : Bool} :
    Passes (disk.lock locked) options first parts name isDir ↔
      Passes disk options first parts name isDir ∧ (first.path.under parts).toString ∉ locked := by
  constructor
  · rintro ⟨tracked, shown, unlinked, listable, kept⟩
    rw [scopesOver_lock] at kept
    rw [Disk.barrier?_lock] at listable
    split at listable
    · cases listable
    · rename_i free
      exact ⟨⟨tracked, shown, unlinked, listable, kept⟩, free⟩
  · rintro ⟨⟨tracked, shown, unlinked, listable, kept⟩, free⟩
    refine ⟨tracked, shown, unlinked, ?_, by rwa [scopesOver_lock]⟩
    rwa [Disk.barrier?_lock, if_neg free]

/-- With more directories locked, a walk enters those directories that have none of these on the way to them. -/
theorem entered_lock_iff :
    Entered (disk.lock locked) options first parts ↔
      Entered disk options first parts ∧
        ∀ above, above <+: parts → above ≠ parts → (first.path.under above).toString ∉ locked := by
  constructor
  · intro entered
    induction entered with
    | root => exact ⟨.root, fun above inside different => absurd (List.prefix_nil.mp inside) different⟩
    | @child parts name _ isDir passes ih =>
      obtain ⟨kept, listable⟩ := passes_lock_iff.mp passes
      refine ⟨ih.1.child isDir kept, fun above inside different => ?_⟩
      have inside := (List.prefix_concat_iff.mp inside).resolve_left different
      by_cases same : above = parts
      · exact same ▸ listable
      · exact ih.2 above inside same
  · rintro ⟨entered, free⟩
    induction entered with
    | root => exact .root
    | @child parts name _ isDir passes ih =>
      have here : (first.path.under parts).toString ∉ locked :=
        free parts (List.prefix_append _ _) (by simp)
      have upper : Entered (disk.lock locked) options first parts := by
        refine ih fun above inside different => free above (inside.trans (List.prefix_append _ _)) ?_
        rintro rfl
        have short := inside.length_le
        simp at short
      exact upper.child isDir (passes_lock_iff.mpr ⟨passes, here⟩)

/-! ### What a locked directory gives -/

/-- What a directory that cannot be listed gives: its ignore files that cannot be read, and then itself. -/
def refusal (disk : Disk) (root : Path) (parts : List String) : List Entry :=
  (readRules disk (root.under parts)).2 ++ [.failure (root.under parts) (.system .denied (root.under parts).toString)]

theorem subjobs_lock (links : options.followLinks = false) (job : Job) :
    subjobs (disk.lock locked) options job =
      if job.path.toString ∈ locked then [] else subjobs disk options job := by
  have same : childJob (disk.lock locked) options job = childJob disk options job :=
    childJob_congr (by rw [readRules_lock]) options
  rw [subjobs_eq links, subjobs_eq links, same, directoryNames, directoryNames, listedNames_lock,
    scopesAt_lock]
  split
  · rfl
  · rfl

theorem ownEntries_lock (links : options.followLinks = false) (top : first.below = [])
    (entered : Entered disk options first parts) :
    ownEntries (disk.lock locked) options (jobAt disk options first parts) =
      if (first.path.under parts).toString ∈ locked then refusal disk first.path parts
      else ownEntries disk options (jobAt disk options first parts) := by
  have stands := entered.stands top
  rw [ownEntries_eq links, ownEntries_eq links, fileNames, fileNames, listedNames_lock,
    scopesAt_lock, readRules_lock, barredEntry, barredEntry, Disk.barrier?_lock, stands.called]
  by_cases refused : (first.path.under parts).toString ∈ locked
  · simp [refused, refusal]
  · simp only [refused, if_false]
    rfl

/-- The scan of a disk comes to what the scan of its locked copy comes to, and in the place of each locked
directory to all that is to be reached from it. -/
theorem reached_lock (links : options.followLinks = false) (locked : List String)
    (jobs : List Job) :
    reached disk options jobs = (reached (disk.lock locked) options jobs).flatMap fun job =>
      if job.path.toString ∈ locked then reached disk options [job] else [job] := by
  -- what is left weighs the same on both disks
  induction fuel : weight disk jobs using Nat.strongRecOn generalizing jobs with
  | ind fuel ih =>
    cases jobs with
    | nil => rfl
    | cons job rest =>
      have less := weight_expanded_lt links disk job rest
      have expanded : reached (disk.lock locked) options (job :: rest) = _ := reached_cons links job rest
      rw [expanded, subjobs_lock links, List.flatMap_cons]
      by_cases refused : job.path.toString ∈ locked
      · have lighter : weight disk rest < weight disk (job :: rest) := by
          rw [weight_cons]
          omega
        rw [if_pos refused, if_pos refused, List.nil_append, ← ih _ (fuel ▸ lighter) _ rfl,
          ← reached_append links, List.singleton_append]
      · rw [if_neg refused, if_neg refused, ← ih _ (fuel ▸ less) _ rfl, reached_cons links]
        rfl

/-! ### Piece by piece -/

/-- A locked directory that the walk comes to without passing through another one. -/
structure Outermost (disk : Disk) (options : Options) (first : Job) (locked : List String)
    (parts : List String) : Prop where
  entered : Entered disk options first parts
  refused : (first.path.under parts).toString ∈ locked
  through : ∀ above, above <+: parts → above ≠ parts → (first.path.under above).toString ∉ locked

/-- A piece of what a scan hands out: some entries, or what stands for a directory. -/
inductive Piece where
  | entries (given : List Entry)
  | directory (parts : List String)

namespace Piece

/-- The entries of the piece, if these are the ones that stand for each directory. -/
def filled (content : List String → List Entry) : Piece → List Entry
  | entries given => given
  | directory parts => content parts

def directory? : Piece → Option (List String)
  | entries _ => none
  | directory parts => some parts

end Piece

/-- The piece for a directory that the scan with the locked ones comes to. -/
def pieceOf (disk : Disk) (options : Options) (first : Job) (locked : List String)
    (parts : List String) : Piece :=
  if (first.path.under parts).toString ∈ locked then .directory parts
  else .entries (ownEntries disk options (jobAt disk options first parts))

theorem directory?_pieceOf {other : List String} :
    (pieceOf disk options first locked parts).directory? = some other ↔
      (first.path.under parts).toString ∈ locked ∧ parts = other := by
  unfold pieceOf
  split <;> simp_all [Piece.directory?]

/-- What two scans hand out, piece by piece: the first finds the directories open that are locked for the second.
The outermost of the locked ones are pieces, and the entries of the other pieces lie neither at nor beneath them. -/
structure Sealed (disk : Disk) (options : Options) (first : Job) (locked : List String)
    (whole refused : List Entry) (pieces : List Piece) : Prop where
  opened : whole = pieces.flatMap (Piece.filled fun parts =>
    whole.filter fun entry => (first.path.under parts).holds entry.path)
  closed : refused = pieces.flatMap (Piece.filled (refusal disk first.path))
  once : (pieces.filterMap Piece.directory?).Nodup
  directories : ∀ parts, parts ∈ pieces.filterMap Piece.directory? ↔
    Outermost disk options first locked parts
  outside : ∀ given, Piece.entries given ∈ pieces → ∀ entry ∈ given,
    ∀ parts, Outermost disk options first locked parts → (first.path.under parts).holds entry.path = false

theorem sealed_of_lock (links : options.followLinks = false) (top : first.below = [])
    (shown : options.hidden = false) (isDir : disk.item? first.place = some .directory) (locked : List String)
    {whole refused : List Entry}
    (ofWhole : whole = (reached disk options [first]).flatMap (ownEntries disk options))
    (ofLocked : refused =
      (reached (disk.lock locked) options [first]).flatMap (ownEntries (disk.lock locked) options)) :
    ∃ pieces, Sealed disk options first locked whole refused pieces := by
  obtain ⟨directories, listed, once, members⟩ := reached_eq_map (disk.lock locked) links top
  rw [jobAt_lock] at listed
  simp only [entered_lock_iff] at members
  refine ⟨directories.map (pieceOf disk options first locked), ?_, ?_, ?_, ?_, ?_⟩
  · nth_rewrite 1 [ofWhole]
    rw [reached_lock links locked, listed, List.flatMap_assoc, List.flatMap_map,
      List.flatMap_map]
    refine List.flatMap_congr fun parts member => ?_
    have entered := ((members parts).mp member).1
    rw [pieceOf, (entered.stands top).called]
    split
    · rw [Piece.filled, ofWhole, filter_holds_eq links top shown isDir entered]
    · rw [Piece.filled, List.flatMap_singleton]
  · rw [ofLocked, listed, List.flatMap_map, List.flatMap_map]
    refine List.flatMap_congr fun parts member => ?_
    rw [pieceOf, ownEntries_lock links top ((members parts).mp member).1]
    split
    · rfl
    · rfl
  · rw [List.filterMap_map]
    refine once.filterMap fun left right other ofLeft ofRight => ?_
    exact (directory?_pieceOf.mp ofLeft).2.trans (directory?_pieceOf.mp ofRight).2.symm
  · intro parts
    simp only [List.filterMap_map, List.mem_filterMap, Function.comp_apply, directory?_pieceOf, members]
    constructor
    · rintro ⟨_, ⟨entered, through⟩, refused, rfl⟩
      exact ⟨entered, refused, through⟩
    · rintro ⟨entered, refused, through⟩
      exact ⟨parts, ⟨entered, through⟩, refused, rfl⟩
  · intro given member entry inside parts outermost
    obtain ⟨rest, listed, piece⟩ := List.mem_map.mp member
    obtain ⟨entered, through⟩ := (members rest).mp listed
    unfold pieceOf at piece
    split at piece
    · cases piece
    · rename_i free
      obtain rfl := Piece.entries.inj piece
      refine not_holds_of_outside links top shown isDir outermost.entered entered (fun above => ?_) inside
      -- a locked directory above it would have kept the scan away
      by_cases same : parts = rest
      · exact free (same ▸ outermost.refused)
      · exact through parts above same outermost.refused

end Walk

end SyntaxTally
