import SyntaxTally.Failure
import SyntaxTally.Files.Disk
import SyntaxTally.Ignore.Scope
import SyntaxTally.Log.Record

/-!
# One directory of a walk

A walk goes through the directories below a root. Expanding one directory gives the entries found in it
and the jobs for the directories to go on with, in the order of their names. Files are read and directories are
opened by the path on which the walk came to them, so that the system's limits hold for the whole of it. What a
listing says of a name that is no link needs no path.
-/
namespace SyntaxTally.Walk

open Files Ignore

structure Options where
  followLinks : Bool := false
  hidden : Bool := false
  /-- Ignore lines that apply from the root on. -/
  excluded : List String := []
  threads : Int := 1

/-- What a walk hands out. -/
inductive Entry where
  | file (path : Path)
  | failure (path : Path) (fault : ReadFault)
  deriving DecidableEq

/-- A directory that is still to be expanded. -/
structure Job where
  path : Path
  /-- Where the directory lies. The path leads there, if the system can follow it. -/
  place : Place
  /-- Its path from the root of the walk. -/
  below : List Char
  scopes : List Scope
  deriving DecidableEq

structure Expansion where
  jobs : List Job
  entries : List Entry
  logs : List Log.Record
  /-- The directories entered so far, kept only when links are followed. -/
  visited : List Place

def logPart : String := "discovery"

def versionControlNames : List String := [".git", ".hg", ".svn"]

def ignoreFileNames : List String := [".gitignore", ".ignore"]

/-! ### Ignore files -/

/-- The rules of an ignore file, or an entry if it cannot be read. A missing one is passed over. -/
def readIgnoreFile (disk : Disk) (file : Path) : List Rule × List Entry :=
  match disk.readText file with
  | .error (.system .missing _) => ([], [])
  | .error fault => ([], [.failure file fault])
  | .ok text => (parseLines (Text.lines text), [])

/-- The rules of the ignore files in a directory, and an entry for each that cannot be read. -/
def readRules (disk : Disk) (path : Path) : List Rule × List Entry :=
  (ignoreFileNames.flatMap fun name => (readIgnoreFile disk (path.child name)).1,
    ignoreFileNames.flatMap fun name => (readIgnoreFile disk (path.child name)).2)

def excludeScope (options : Options) : Scope where
  base := []
  rules := parseLines (options.excluded.map String.toList)

/-- The scopes for what is in a directory: those from above, its own ignore files, and at the root what
the options exclude. -/
def scopesIn (options : Options) (job : Job) (rules : List Rule) : List Scope :=
  let own := if rules.isEmpty then [] else [{ base := job.below, rules }]
  let excluded :=
    if job.below.isEmpty && !(excludeScope options).rules.isEmpty then [excludeScope options] else []
  job.scopes ++ own ++ excluded

/-! ### Children -/

/-- The names a walk looks at. -/
def admits (options : Options) (name : String) : Bool :=
  !versionControlNames.contains name && (options.hidden || !name.startsWith ".")

def isLinkAt (disk : Disk) (place : Place) : Bool :=
  match disk.item? place with
  | some (.link _) => true
  | _ => false

/-- What a name in the directory of a job stands for. A link is followed, and a dangling one stands for
nothing. -/
def target (disk : Disk) (job : Job) (name : String) : Except Fault (Option (Place × Item)) :=
  if isLinkAt disk (job.place ++ [name]) then
    match disk.lookup (job.path.child name) with
    | .ok found => .ok (some found)
    | .error .missing => .ok none
    | .error fault => .error fault
  else .ok ((disk.item? (job.place ++ [name])).map (job.place ++ [name], ·))

def belowOf (job : Job) (name : String) : List Char :=
  if job.below.isEmpty then name.toList else job.below ++ '/' :: name.toList

/-- The same search with a directory to go on with. If links are followed it must not have been entered, and its
path must lead to it. -/
def addJob (disk : Disk) (options : Options) (found : Expansion) (job : Job) : Expansion :=
  if options.followLinks then
    match disk.placeOf true job.path with
    | .error fault =>
      { found with entries := found.entries ++ [.failure job.path (.system fault job.path.toString)] }
    | .ok _ =>
      if found.visited.contains job.place then
        { found with
          logs := found.logs ++ [⟨.debug, logPart, "Skipping already visited directory " ++ job.path.toString⟩] }
      else { found with jobs := found.jobs ++ [job], visited := job.place :: found.visited }
  else { found with jobs := found.jobs ++ [job] }

/-- Adds what one name of the directory gives. -/
def addChild (disk : Disk) (options : Options) (job : Job) (scopes : List Scope) (found : Expansion)
    (name : String) : Expansion :=
  let path := job.path.child name
  let below := belowOf job name
  if !admits options name then found
  else if isLinkAt disk (job.place ++ [name]) && !options.followLinks then
    { found with logs := found.logs ++ [⟨.debug, logPart, "Not following symlink " ++ path.toString⟩] }
  else
    match target disk job name with
    | .error fault =>
      { found with entries := found.entries ++ [.failure path (.system fault (job.path.listed name))] }
    | .ok (some (place, .directory)) =>
      if ignored below true scopes then found else addJob disk options found { path, place, below, scopes }
    | .ok (some (_, .file _)) =>
      if ignored below false scopes then found
      else { found with entries := found.entries ++ [.file path] }
    | .ok _ => found

/-- A directory that cannot be listed gives an entry instead. -/
def barredEntry (disk : Disk) (job : Job) : List Entry :=
  match disk.barrier? job.path with
  | some fault => [.failure job.path (.system fault job.path.toString)]
  | none => []

/-- The names in a directory, as far as it can be listed. -/
def listedNames (disk : Disk) (job : Job) : List String :=
  if (disk.barrier? job.path).isSome then [] else disk.namesIn job.place

/-- Lists one directory. -/
def expand (disk : Disk) (options : Options) (job : Job) (visited : List Place) : Expansion :=
  let (rules, failures) := readRules disk job.path
  (listedNames disk job).foldl (addChild disk options job (scopesIn options job rules))
    { jobs := [], entries := failures ++ barredEntry disk job, logs := [], visited }

/-! ### The root -/

/-- A directory with this in it is the top of a checkout. -/
def checkoutMark (directory : Path) : Path := directory.child ".git"

/-- The directory is the top of a checkout. The question fails where the system fails for another reason than that
there is no such thing. -/
def isTop (disk : Disk) (directory : Path) : Except Crash Bool :=
  (disk.exists? (checkoutMark directory)).mapError (.system · (checkoutMark directory).toString)

/-- The first of the directories up to a top of a checkout; none if none of them is one. -/
def upToTop (disk : Disk) : List Path → Except Crash (List Path)
  | [] => .ok []
  | directory :: rest =>
    (isTop disk directory).bind fun top =>
      if top then .ok [directory]
      else (upToTop disk rest).map fun above => if above.isEmpty then [] else directory :: above

/-- The directories above the real root up to the top of its checkout, the top first; none if the root is
such a top itself or lies in no checkout. -/
def checkoutAbove (disk : Disk) (real : Path) : Except Crash (List Path) :=
  (isTop disk real).bind fun top =>
    if top then .ok [] else (upToTop disk real.ancestors).map List.reverse

/-- The scope of the ignore files in a directory above the root, and a warning for each that cannot be read. -/
def scopeAbove (disk : Disk) (real above : Path) : List Scope × List Log.Record :=
  let (rules, failures) := readRules disk above
  let lead := (real.parts.drop above.parts.length).map String.toList
  (if rules.isEmpty then [] else [{ base := [], rules, lead := joined lead }],
    failures.filterMap fun
      | .failure path fault => some ⟨.warning, logPart, path.toString ++ ": " ++ fault.message⟩
      | .file _ => none)

/-- The scopes of the ignore files above the root, and the warnings on the way. -/
def scopesAbove (disk : Disk) (real : Path) : Except Crash (List Scope × List Log.Record) :=
  (checkoutAbove disk real).map fun directories =>
    (directories.flatMap fun above => (scopeAbove disk real above).1,
      directories.flatMap fun above => (scopeAbove disk real above).2)

/-- The first job of a walk, with the warnings on the way to it. -/
def rootJob (disk : Disk) (root : Path) (place : Place) : Except Crash (Job × List Log.Record) :=
  (scopesAbove disk ⟨1, place⟩).map fun (scopes, logs) => ({ path := root, place, below := [], scopes }, logs)

end SyntaxTally.Walk
