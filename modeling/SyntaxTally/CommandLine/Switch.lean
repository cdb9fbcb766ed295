/-!
# Switches

What can be asked for on the command line besides the path: how each switch is written, what stands behind
it, and what it is for.
-/
namespace SyntaxTally.CommandLine

def programName : String := "querytally"

def programVersion : String := "0.1.0"

inductive Switch where
  | help
  | skipped
  | verbose
  | workers
  | walkThreads
  | followLinks
  | hidden
  | width
  | config
  | logFile
  | version
  deriving DecidableEq

namespace Switch

/-- The switches in the order in which they are described. -/
def all : List Switch :=
  [help, skipped, verbose, workers, walkThreads, followLinks, hidden, width, config, logFile, version]

def names : Switch → List String
  | help => ["-h", "--help"]
  | skipped => ["-s", "--skipped"]
  | verbose => ["-v", "--verbose"]
  | workers => ["-j", "--workers"]
  | walkThreads => ["--walk-threads"]
  | followLinks => ["--follow-links"]
  | hidden => ["--hidden"]
  | width => ["--width"]
  | config => ["--config"]
  | logFile => ["--log-file"]
  | version => ["--version"]

/-- What the value behind a switch is called, if it takes one. -/
def value? : Switch → Option String
  | workers => some "WORKERS"
  | walkThreads => some "WALK_THREADS"
  | width => some "WIDTH"
  | config => some "CONFIG"
  | logFile => some "LOG_FILE"
  | help | skipped | verbose | followLinks | hidden | version => none

def takesValue (switch : Switch) : Bool := switch.value?.isSome

def purpose : Switch → String
  | help => "show this help message and exit"
  | skipped => "Show skipped files."
  | verbose => "Increase log verbosity for troubleshooting."
  | workers => "Number of analysis workers (1 analyzes sequentially)."
  | walkThreads => "Number of threads discovering files."
  | followLinks => "Follow symbolic links while walking directories."
  | hidden => "Include hidden files and directories."
  | width => "Maximum table width in columns."
  | config => "Path to a .querytally.yml file (defaults to one in the analyzed directory)."
  | logFile => "Also write debug logs, tagged by worker thread, to this file."
  | version => "show program's version number and exit"

/-- A name with the value that stands behind it. -/
def invocation (switch : Switch) (name : String) : String :=
  match switch.value? with
  | some value => name ++ " " ++ value
  | none => name

/-- All names, as faults show them. -/
def title (switch : Switch) : String := "/".intercalate switch.names

def ofName? (name : String) : Option Switch := all.find? (·.names.contains name)

/-- All names of all switches. -/
def allNames : List (String × Switch) := all.flatMap fun switch => switch.names.map fun name => (name, switch)

end Switch

/-- What the path is for. -/
def pathPurpose : String := "The path to the file or directory to analyze (defaults to current directory)."

/-- What the program is for. -/
def programPurpose : String :=
  "Parse and query a file or directory with tree-sitter and report the number of times each query capture is matched."

end SyntaxTally.CommandLine
