import SyntaxTally.Files.Disk
import SyntaxTally.Settings
import SyntaxTally.Settings.Field

/-!
# Settings files

Where the settings of a directory are kept, and how they are read. Without a file there are the defaults.
-/
namespace SyntaxTally

open Files
open Yaml

/-- Why there are no settings. -/
inductive SettingsFault where
  | notYaml (path : Path)
  | unreadable (name : String) (fault : ReadFault)
  | unparsable (name : String) (reason : String)
  | noMapping
  | badTableWidth
  /-- There is no such user. -/
  | noHome
  | linkLoop (path : Path)
  | system (fault : Files.Fault) (path : Path)
  | crash (cause : Crash)

namespace Settings

/-- The name of the file in a directory. -/
def fileName : String := ".querytally.yml"

end Settings

namespace SettingsFault

/-- The fault lies in the file and is told to the user. Other faults end the program. -/
def isTold : SettingsFault → Bool
  | notYaml _ | unreadable _ _ | unparsable _ _ | noMapping | badTableWidth => true
  | noHome | linkLoop _ | system _ _ | crash _ => false

def message : SettingsFault → String
  | notYaml path => path.toString ++ " is not a YAML file (expected .yml or .yaml)"
  | unreadable name fault => "Failed to read " ++ name ++ ": " ++ fault.message
  | unparsable name reason => "Failed to parse " ++ name ++ ": " ++ reason
  | noMapping => Settings.fileName ++ " must contain a mapping at the root"
  | badTableWidth => "table_width must be a positive integer"
  | noHome => "Could not determine home directory."
  | linkLoop path => "Symlink loop from " ++ Text.quoted path.toString
  | system fault path => fault.message path.toString
  | crash cause => cause.message

end SettingsFault

namespace Settings

/-! ### From values -/

def fieldInt (value : Value) (name : String) : Option Int := (value.field? name).bind Value.asInt?

def fieldBool (value : Value) (name : String) : Bool := ((value.field? name).bind Value.asBool?).getD false

def fieldStrings (value : Value) (name : String) : Except SettingsFault (List String) :=
  match value.field? name with
  | none => .ok []
  | some found => found.asStrings.mapError .crash

/-- What stands under `walk`, and the paths that are excluded beside it. -/
def walkOfValue (value : Value) : Except SettingsFault WalkSettings := do
  let walk := (value.field? "walk").getD .null
  let excluded ← fieldStrings walk "exclude_paths"
  let alsoExcluded ← fieldStrings value "exclude_paths"
  .ok {
    followLinks := fieldBool walk "follow_links"
    hidden := fieldBool walk "hidden"
    threads := fieldInt walk "threads"
    excludePaths := excluded ++ alsoExcluded }

def ofValue (value : Value) : Except SettingsFault Settings := do
  let walk ← walkOfValue value
  let tableWidth := (fieldInt value "table_width").getD defaultTableWidth
  if tableWidth ≤ 0 then .error .badTableWidth
  else .ok {
    workers := fieldInt value "workers"
    queueSize := fieldInt value "queue_size"
    languages := (← fieldStrings value "languages").map Text.lower
    showSkipped := fieldBool value "show_skipped"
    tableWidth := tableWidth
    walk := walk }

/-- The settings in a text. An empty text or value leaves the defaults. -/
def ofText (read : Yaml.Reader) (name : String) (text : List Char) : Except SettingsFault Settings :=
  if (Text.strip text).isEmpty then .ok {}
  else
    match read text with
    | .error (.malformed reason) => .error (.unparsable name reason)
    | .error (.impossible crash) => .error (.crash crash)
    | .ok (.mapping entries) => ofValue (.mapping entries)
    | .ok value => if value.isEmpty then .ok {} else .error .noMapping

end Settings

/-! ### From files -/

/-- Settings, and the directory they are for. -/
structure Configuration where
  root : Path
  settings : Settings

namespace Configuration

/-- A path that starts with `~` is in the home directory. Homes of other users are not known. -/
def expandHome (disk : Disk) (path : Path) : Except SettingsFault Path :=
  match path.parts with
  | first :: rest =>
    if path.isAbsolute || !first.startsWith "~" then .ok path
    else if first = "~" then .ok (rest.foldl Path.child (Path.ofString disk.home))
    else .error .noHome
  | [] => .ok path

def realPath (disk : Disk) (path : Path) : Except SettingsFault Path :=
  match disk.realPath path with
  | .ok real => .ok real
  | .error (.system fault) => .error (.system fault path)
  | .error (.loop real) => .error (.linkLoop real)

/-- The settings file that a path leads to: the one in a directory, or the path itself. -/
def fileAt (disk : Disk) (path : Path) : Except SettingsFault Path := do
  let path ← expandHome disk path
  if ← (disk.isDirectory path).mapError (.system · path) then realPath disk (path.child Settings.fileName)
  else if path.extension ∈ [".yml", ".yaml"] then realPath disk path
  else .error (.notYaml path)

/-- The settings at a path, whose text is read into a value by a reader. -/
def load (read : Yaml.Reader) (disk : Disk) (path : Path) : Except SettingsFault Configuration := do
  let file ← fileAt disk path
  let root ← realPath disk file.parent
  if ← (disk.exists? file).mapError (.system · file) then
    let text ← (disk.readText file).mapError (.unreadable file.name)
    .ok ⟨root, ← Settings.ofText read file.name text⟩
  else .ok ⟨root, {}⟩

end Configuration

end SyntaxTally
