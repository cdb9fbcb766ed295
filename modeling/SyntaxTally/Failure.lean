import SyntaxTally.Files.Fault
import SyntaxTally.Files.Path
import SyntaxTally.Text.Quoted

/-!
# Failures

The kinds of failure and how they specialise one another. Some end the whole run, the others concern one
file only, which is then left out of the counts.
-/
namespace SyntaxTally

inductive FailureKind where
  | any
  | run
  | inputPath
  | noFiles
  | worker
  | analysis
  | resolution
  | unsupportedLanguage
  | languageNotBuilt
  | queryBuild
  | read
  | decode
  | parse
  deriving DecidableEq

namespace FailureKind

def all : List FailureKind :=
  [any, run, inputPath, noFiles, worker, analysis, resolution, unsupportedLanguage, languageNotBuilt,
    queryBuild, read, decode, parse]

def name : FailureKind → String
  | any => "QueryTallyError"
  | run => "RunError"
  | inputPath => "InputPathError"
  | noFiles => "NoFilesError"
  | worker => "WorkerFailure"
  | analysis => "AnalysisError"
  | resolution => "ResolutionError"
  | unsupportedLanguage => "UnsupportedLanguageError"
  | languageNotBuilt => "LanguageNotBuiltError"
  | queryBuild => "QueryBuildError"
  | read => "ReadError"
  | decode => "DecodeError"
  | parse => "ParseError"

def ofName? (name : String) : Option FailureKind := all.find? (·.name = name)

/-- The kind itself and the more general ones. -/
def lineage : FailureKind → List FailureKind
  | any => [any]
  | run => [run, any]
  | inputPath => [inputPath, run, any]
  | noFiles => [noFiles, run, any]
  | worker => [worker, run, any]
  | analysis => [analysis, any]
  | resolution => [resolution, analysis, any]
  | unsupportedLanguage => [unsupportedLanguage, resolution, analysis, any]
  | languageNotBuilt => [languageNotBuilt, analysis, any]
  | queryBuild => [queryBuild, analysis, any]
  | read => [read, analysis, any]
  | decode => [decode, analysis, any]
  | parse => [parse, analysis, any]

def isA (kind general : FailureKind) : Bool := kind.lineage.contains general

/-- What a failure of the kind says when nothing else is said. -/
def standing? : FailureKind → Option String
  | noFiles => some "No files to analyze"
  | _ => none

end FailureKind

/-- A failure that this program has no kind for. -/
inductive Crash where
  /-- One with the name of its kind and what it was given to say. -/
  | told (kind text : String)
  /-- A call of the system that failed, with the path it was given. -/
  | system (fault : Files.Fault) (path : String)
  deriving DecidableEq

namespace Crash

def kind : Crash → String
  | told kind _ => kind
  | system fault _ => fault.kind

/-- A missing key is shown in quotes. -/
def message : Crash → String
  | told kind text => if kind = "KeyError" then Text.quoted text else text
  | system fault path => fault.message path

/-- The crash with its kind, as reports of a failed run show it. -/
def shown : Crash → String
  | told kind text => kind ++ "(" ++ Text.quoted text ++ ")"
  | system fault _ => fault.kind ++ "(" ++ toString fault.number ++ ", " ++ Text.quoted fault.text ++ ")"

end Crash

/-- What breaks work off: a crash, or an interrupt, which nothing but the end of the program catches. -/
inductive Halt where
  | crash (crash : Crash)
  | interrupt (crash : Crash)
  deriving DecidableEq

end SyntaxTally
