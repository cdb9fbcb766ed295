import SyntaxTally.Analyzer.Engine
import SyntaxTally.Cache
import SyntaxTally.Files.Disk
import SyntaxTally.Language.Support
import SyntaxTally.Log.Record

/-!
# Analysing one file

A file is counted in steps, of which the first that fails is reported: its language, the query for that
language, its bytes, their text, and the tree of the text.
-/
namespace SyntaxTally

open Files

/-- Why the analysis of a file failed. -/
inductive AnalysisFault where
  | resolution (fault : ResolutionFault)
  | notBuilt (language : Language)
  | query (language : Language) (reason : String)
  | unreadable (path : Path) (fault : Fault)
  | undecodable (path : Path) (reason : Text.Utf8Reason)
  /-- The text has no tree; in-memory text has no path either. -/
  | treeless (path : Option Path)
  /-- A fault of another analyser, which says what it likes. -/
  | other (kind : FailureKind) (text : String)
  deriving DecidableEq

namespace AnalysisFault

def kind : AnalysisFault → FailureKind
  | resolution _ => .unsupportedLanguage
  | notBuilt _ => .languageNotBuilt
  | query _ _ => .queryBuild
  | unreadable _ _ => .read
  | undecodable _ _ => .decode
  | treeless _ => .parse
  | other kind _ => kind

def message : AnalysisFault → String
  | resolution fault => fault.message
  | notBuilt language => "This copy of querytally was not built with '" ++ language.name ++ "' support"
  | query language reason => "Failed to compile " ++ language.name ++ " query: " ++ reason
  | unreadable path fault => "Failed to read " ++ path.toString ++ ": " ++ fault.text
  | undecodable path reason => path.toString ++ " is not valid UTF-8: " ++ reason.message
  | treeless (some path) => "Failed to parse " ++ path.toString
  | treeless none => "Failed to parse source"
  | other _ text => text

end AnalysisFault

/-- A failed analysis with the file it is about, if there is one. -/
structure AnalysisError where
  fault : AnalysisFault
  path : Option Path
  deriving DecidableEq

/-- How an analysis ends. -/
inductive Outcome where
  | counted (counts : Counts)
  /-- The file is left out. -/
  | failed (error : AnalysisError)
  /-- The analyser itself broke down. -/
  | crashed (crash : Crash)
  /-- The user broke off. -/
  | interrupted (crash : Crash)

abbrev QueryCache (engine : Engine) := Cache Language engine.Query

namespace Analyzer

variable (engine : Engine)

/-- Compiles the query of a language. -/
def compile (support : Support) (language : Language) : Except AnalysisFault engine.Query :=
  match support.queryText language with
  | none => .error (.notBuilt language)
  | some text =>
    if support.hasGrammar language then (engine.compile language text).mapError (.query language)
    else .error (.notBuilt language)

/-- The name by which records speak of a language. -/
def constantName (language : Language) : String :=
  "Language." ++ String.ofList (language.name.toList.map Char.toUpper)

/-- The records of a compiled query. -/
def compiledLogs (language : Language) (query : engine.Query) : List Log.Record :=
  [⟨.debug, "analyzers.tree_sitter",
      "Compiled " ++ language.name ++ " query with " ++ toString (engine.captureTotal query) ++ " captures"⟩,
    ⟨.debug, "stores.query_cache", "Built cache entry for " ++ constantName language⟩]

/-- The compiled query of a language, from the cache if it is there. -/
def compiled (support : Support) (language : Language) (cache : QueryCache engine) :
    Except AnalysisFault engine.Query × List Log.Record × QueryCache engine :=
  match cache.getOrBuild language fun cache => (compile engine support language, (), cache) with
  | (.ok query, some (), cache) => (.ok query, compiledLogs engine language query, cache)
  | (result, _, cache) => (result, [], cache)

/-- Counts the captures in a source. -/
def count (language : Language) (query : engine.Query) (source : List UInt8) (path : Option Path) :
    Except AnalysisFault Counts :=
  match engine.parse language source with
  | some tree => .ok (captureCounts (engine.search query tree))
  | none => .error (.treeless path)

/-- The bytes of a file, which must be those of a text, and the counts of that. -/
def countFile (disk : Disk) (language : Language) (query : engine.Query) (path : Path) : Outcome :=
  let failed (fault : AnalysisFault) : Outcome := .failed ⟨fault, some path⟩
  match disk.readBytes path with
  | .error .nullInPath => .crashed (.told "ValueError" Fault.nullInPath.text)
  | .error fault => failed (.unreadable path fault)
  | .ok bytes =>
    match Text.decodeUtf8 bytes with
    | .error fault => failed (.undecodable path fault.reason)
    | .ok _ =>
      match count engine language query bytes (some path) with
      | .error fault => failed fault
      | .ok counts => .counted counts

/-- Counts the captures in a file. -/
def analyze (support : Support) (disk : Disk) (path : Path) (cache : QueryCache engine) :
    Outcome × List Log.Record × QueryCache engine :=
  match Language.ofPath path with
  | .error fault => (.failed ⟨.resolution fault, some path⟩, [], cache)
  | .ok language =>
    match compiled engine support language cache with
    | (.error fault, logs, cache) => (.failed ⟨fault, some path⟩, logs, cache)
    | (.ok query, logs, cache) => (countFile engine disk language query path, logs, cache)

/-- Counts the captures in a text that is no file. -/
def analyzeText (support : Support) (language : Language) (text : List Char) (cache : QueryCache engine) :
    Except AnalysisError Counts × List Log.Record × QueryCache engine :=
  match compiled engine support language cache with
  | (.error fault, logs, cache) => (.error ⟨fault, none⟩, logs, cache)
  | (.ok query, logs, cache) =>
    ((count engine language query (Text.encodeUtf8 text) none).mapError (⟨·, none⟩), logs, cache)

end Analyzer

end SyntaxTally
