import Mathlib.Data.List.Basic
import SyntaxTally.Analyzer
import SyntaxTally.Proofs.Cache.Turn

/-!
# Files one after another

Queries are compiled once and kept. A cache is `Faithful` if it holds what would be compiled anew and counts one
build for each query in it; every analysis keeps that, and with such a cache an analysis comes out as with an empty
one. So the files before a file are nothing to it, and the first step that fails for a file is reported.
-/
namespace SyntaxTally

open Files

namespace Cache

theorem contains_store {κ ν : Type} [DecidableEq κ] (cache : Cache κ ν) (key other : κ) (value : ν) :
    (cache.store key value).contains other = (cache.contains other || decide (key = other)) := by
  rw [contains_eq_isSome, contains_eq_isSome, store, get?_countBuild]
  by_cases same : key = other
  · subst same
    simp [get?_put]
  · simp [get?_put_of_ne cache value same, same]

end Cache

/-! ### Faults of reading -/

namespace Files.Disk

theorem advance_ne_nullInPath {disk : Disk} {last : Bool} {onLink : Place → List String → Except Fault Place}
    (further : ∀ place parts, onLink place parts ≠ .error .nullInPath) (place : Place) (parts : List String) :
    disk.advance last onLink place parts ≠ .error .nullInPath := by
  fun_induction advance disk last onLink place parts with
  | case9 => exact further _ _
  | _ => simp_all

theorem follow_ne_nullInPath (disk : Disk) (last : Bool) (links : Nat) (place : Place) (parts : List String) :
    disk.follow last links place parts ≠ .error .nullInPath := by
  induction links generalizing place parts with
  | zero => exact advance_ne_nullInPath (fun _ _ => by simp) place parts
  | succ links ih => exact advance_ne_nullInPath ih place parts

theorem bytesAt_ne_nullInPath (disk : Disk) (place : Place) : disk.bytesAt place ≠ .error .nullInPath := by
  unfold bytesAt
  split
  · simp
  · simp
  · split <;> simp
  · simp
  · simp

theorem placeOf_eq_nullInPath_iff {disk : Disk} {path : Path} {last : Bool} :
    disk.placeOf last path = .error .nullInPath ↔ path.hasNull = true := by
  unfold placeOf
  by_cases null : path.hasNull = true
  · simp [null]
  · rw [if_neg null]
    refine ⟨fun failed => ?_, fun also => absurd also null⟩
    split at failed
    · cases failed
    · split at failed
      · cases failed
      · exact absurd failed (follow_ne_nullInPath _ _ _ _ _)

theorem readBytes_eq_nullInPath_iff {disk : Disk} {path : Path} :
    disk.readBytes path = .error .nullInPath ↔ path.hasNull = true := by
  rw [← @placeOf_eq_nullInPath_iff disk path true]
  unfold readBytes
  cases leads : disk.placeOf true path with
  | error fault => simp [bind, Except.bind]
  | ok place => exact iff_of_false (bytesAt_ne_nullInPath disk place) nofun

end Files.Disk

/-! ### The steps of an analysis -/

/-- What must go well for a file to be counted, in this order. -/
inductive AnalysisStep where
  | extension
  | query
  | read
  | decode
  | parse
  deriving DecidableEq

namespace AnalysisStep

def rank : AnalysisStep → Nat
  | extension => 0
  | query => 1
  | read => 2
  | decode => 3
  | parse => 4

end AnalysisStep

/-- The step that a fault is about. -/
def AnalysisFault.step? (fault : AnalysisFault) : Option AnalysisStep :=
  match fault.kind with
  | .unsupportedLanguage => some .extension
  | .languageNotBuilt | .queryBuild => some .query
  | .read => some .read
  | .decode => some .decode
  | .parse => some .parse
  | _ => none

/-- The analysis came to the bytes of the file. -/
def Outcome.pastCompilation : Outcome → Bool
  | .failed error => error.fault.step? ≠ some .extension && error.fault.step? ≠ some .query
  | _ => true

namespace Analyzer

/-- The step does not go well for the file, whatever becomes of the others. -/
def Fails (engine : Engine) (support : Support) (disk : Disk) (path : Path) : AnalysisStep → Prop
  | .extension => ∃ fault, Language.ofPath path = .error fault
  | .query => ∃ language fault, Language.ofPath path = .ok language ∧ compile engine support language = .error fault
  | .read => ∃ fault, disk.readBytes path = .error fault
  | .decode => ∃ bytes fault, disk.readBytes path = .ok bytes ∧ Text.decodeUtf8 bytes = .error fault
  | .parse => ∃ language bytes text, Language.ofPath path = .ok language ∧ disk.readBytes path = .ok bytes ∧
      Text.decodeUtf8 bytes = .ok text ∧ engine.parse language bytes = none

/-- The step is the first that does not go well. -/
def FirstFails (engine : Engine) (support : Support) (disk : Disk) (path : Path) (step : AnalysisStep) : Prop :=
  Fails engine support disk path step ∧
    ∀ earlier : AnalysisStep, earlier.rank < step.rank → ¬ Fails engine support disk path earlier

/-- What the analysis of a file may come to: counts if all goes well, else a fault of the first step that does not,
which names the file. The one exception is a path with a null character, which cannot be read and is not named. -/
inductive Reports (engine : Engine) (support : Support) (disk : Disk) (path : Path) : Outcome → Prop where
  | counted {counts : Counts} (well : ∀ step, ¬ Fails engine support disk path step) :
    Reports engine support disk path (.counted counts)
  | failed (step : AnalysisStep) {fault : AnalysisFault} (first : FirstFails engine support disk path step)
    (about : fault.step? = some step) (nullFree : step = .read → path.hasNull = false) :
    Reports engine support disk path (.failed ⟨fault, some path⟩)
  | crashed (first : FirstFails engine support disk path .read) (null : path.hasNull = true) :
    Reports engine support disk path (.crashed (.told "ValueError" "embedded null byte"))

variable {engine : Engine} {support : Support} {disk : Disk} {path : Path} {language : Language} {query : engine.Query}
  {bytes : List UInt8} {text : List Char}

/-! ### The first step that fails -/

theorem step?_of_compile {fault : AnalysisFault} (failed : compile engine support language = .error fault) :
    fault.step? = some .query := by
  unfold compile at failed
  split at failed
  · obtain rfl := Except.error.inj failed
    rfl
  · rename_i text _
    split at failed
    · cases read : engine.compile language text with
      | ok => simp [read, Except.mapError] at failed
      | error reason =>
        rw [read] at failed
        obtain rfl := Except.error.inj failed
        rfl
    · obtain rfl := Except.error.inj failed
      rfl

theorem extension_well (named : Language.ofPath path = .ok language) : ¬ Fails engine support disk path .extension := by
  rintro ⟨fault, failed⟩
  rw [named] at failed
  cases failed

theorem query_well (named : Language.ofPath path = .ok language)
    (compiled : compile engine support language = .ok query) : ¬ Fails engine support disk path .query := by
  rintro ⟨other, fault, also, failed⟩
  obtain rfl := Except.ok.inj (named.symm.trans also)
  rw [compiled] at failed
  cases failed

theorem read_well (read : disk.readBytes path = .ok bytes) : ¬ Fails engine support disk path .read := by
  rintro ⟨fault, failed⟩
  rw [read] at failed
  cases failed

theorem decode_well (read : disk.readBytes path = .ok bytes) (decoded : Text.decodeUtf8 bytes = .ok text) :
    ¬ Fails engine support disk path .decode := by
  rintro ⟨other, fault, also, failed⟩
  obtain rfl := Except.ok.inj (read.symm.trans also)
  rw [decoded] at failed
  cases failed

theorem parse_well {tree : engine.Tree} (named : Language.ofPath path = .ok language)
    (read : disk.readBytes path = .ok bytes)
    (parsed : engine.parse language bytes = some tree) : ¬ Fails engine support disk path .parse := by
  rintro ⟨other, others, also, sameName, sameBytes, -, treeless⟩
  obtain rfl := Except.ok.inj (named.symm.trans sameName)
  obtain rfl := Except.ok.inj (read.symm.trans sameBytes)
  rw [parsed] at treeless
  cases treeless

theorem reports_unread {fault : Fault} (known : ¬ Fails engine support disk path .extension)
    (built : ¬ Fails engine support disk path .query) (read : disk.readBytes path = .error fault) :
    Reports engine support disk path (countFile engine disk language query path) := by
  have first : FirstFails engine support disk path .read := by
    refine ⟨⟨fault, read⟩, fun earlier before => ?_⟩
    cases earlier <;> simp_all [AnalysisStep.rank]
  unfold countFile
  rw [read]
  by_cases null : path.hasNull = true
  · rw [Disk.readBytes_eq_nullInPath_iff.mpr null] at read
    obtain rfl := Except.error.inj read
    exact .crashed first null
  · have nullFree : path.hasNull = false := by simpa using null
    cases fault with
    | nullInPath => exact absurd (Disk.readBytes_eq_nullInPath_iff.mp read) null
    | _ => exact .failed .read first rfl fun _ => nullFree

theorem reports_countFile (named : Language.ofPath path = .ok language)
    (compiled : compile engine support language = .ok query) :
    Reports engine support disk path (countFile engine disk language query path) := by
  have known : ¬ Fails engine support disk path .extension := extension_well named
  have built : ¬ Fails engine support disk path .query := query_well named compiled
  cases read : disk.readBytes path with
  | error fault => exact reports_unread known built read
  | ok bytes =>
    have readable : ¬ Fails engine support disk path .read := read_well read
    unfold countFile
    rw [read]
    dsimp only
    cases decoded : Text.decodeUtf8 bytes with
    | error fault =>
      refine .failed .decode ⟨⟨bytes, fault, read, decoded⟩, fun earlier before => ?_⟩ rfl (by simp)
      cases earlier <;> simp_all [AnalysisStep.rank]
    | ok text =>
      have valid : ¬ Fails engine support disk path .decode := decode_well read decoded
      dsimp only
      unfold count
      cases parsed : engine.parse language bytes with
      | none =>
        have treeless : Fails engine support disk path .parse := ⟨language, bytes, text, named, read, decoded, parsed⟩
        refine .failed .parse ⟨treeless, fun earlier before => ?_⟩ rfl (by simp)
        cases earlier <;> simp_all [AnalysisStep.rank]
      | some tree =>
        refine .counted fun step => ?_
        cases step with
        | parse => exact parse_well named read parsed
        | _ => assumption

/-- The analysis of a file by itself. -/
def judge (engine : Engine) (support : Support) (disk : Disk) (path : Path) : Outcome :=
  match Language.ofPath path with
  | .error fault => .failed ⟨.resolution fault, some path⟩
  | .ok language =>
    match compile engine support language with
    | .error fault => .failed ⟨fault, some path⟩
    | .ok query => countFile engine disk language query path

theorem judge_of_unknown {fault : ResolutionFault} (named : Language.ofPath path = .error fault) :
    judge engine support disk path = .failed ⟨.resolution fault, some path⟩ := by
  rw [judge, named]

theorem judge_of_uncompiled {fault : AnalysisFault} (named : Language.ofPath path = .ok language)
    (failed : compile engine support language = .error fault) :
    judge engine support disk path = .failed ⟨fault, some path⟩ := by
  simp only [judge, named, failed]

theorem judge_of_compiled (named : Language.ofPath path = .ok language)
    (compiled : compile engine support language = .ok query) :
    judge engine support disk path = countFile engine disk language query path := by
  simp only [judge, named, compiled]

theorem reports_judge (engine : Engine) (support : Support) (disk : Disk) (path : Path) :
    Reports engine support disk path (judge engine support disk path) := by
  cases named : Language.ofPath path with
  | error fault =>
    rw [judge_of_unknown named]
    refine .failed .extension ⟨⟨fault, named⟩, fun earlier before => ?_⟩ rfl (by simp)
    cases earlier <;> simp [AnalysisStep.rank] at before
  | ok language =>
    cases compiled : compile engine support language with
    | error fault =>
      rw [judge_of_uncompiled named compiled]
      refine .failed .query ⟨⟨language, fault, named, compiled⟩, fun earlier before => ?_⟩
        (step?_of_compile compiled) (by simp)
      cases earlier with
      | extension => exact extension_well named
      | _ => simp [AnalysisStep.rank] at before
    | ok query =>
      rw [judge_of_compiled named compiled]
      exact reports_countFile named compiled

theorem Reports.pastCompilation {outcome : Outcome} (reports : Reports engine support disk path outcome)
    (known : ¬ Fails engine support disk path .extension) (built : ¬ Fails engine support disk path .query) :
    outcome.pastCompilation = true := by
  cases reports with
  | counted => rfl
  | crashed => rfl
  | failed step first about =>
    have later : step ≠ .extension ∧ step ≠ .query :=
      ⟨fun same => known (same ▸ first.1), fun same => built (same ▸ first.1)⟩
    simp [Outcome.pastCompilation, about, later]

theorem pastCompilation_judge_iff (named : Language.ofPath path = .ok language) :
    (judge engine support disk path).pastCompilation = true ↔ ∃ query, compile engine support language = .ok query := by
  cases compiled : compile engine support language with
  | error fault =>
    rw [judge_of_uncompiled named compiled]
    simp [Outcome.pastCompilation, step?_of_compile compiled]
  | ok query =>
    have past := (reports_judge engine support disk path).pastCompilation (extension_well named)
      (query_well named compiled)
    simp [past]

/-! ### What the cache holds -/

/-- The cache holds what would be compiled anew, and one build is counted for each query in it. -/
structure Faithful (engine : Engine) (support : Support) (cache : QueryCache engine) : Prop where
  genuine : ∀ language query, cache.get? language = some query → compile engine support language = .ok query
  counted : ∀ language, cache.buildCount language = if cache.contains language then 1 else 0

theorem faithful_empty (engine : Engine) (support : Support) : Faithful engine support .empty where
  genuine _ _ found := by cases found
  counted _ := rfl

variable {cache : QueryCache engine}

theorem Faithful.store (faithful : Faithful engine support cache) (absent : cache.get? language = none)
    (compiled : compile engine support language = .ok query) :
    Faithful engine support (cache.store language query) where
  genuine other held found := by
    rw [Cache.store, Cache.get?_countBuild] at found
    by_cases same : language = other
    · subst same
      rw [Cache.get?_put] at found
      obtain rfl := Option.some.inj found
      exact compiled
    · rw [Cache.get?_put_of_ne cache query same] at found
      exact faithful.genuine other held found
  counted other := by
    rw [Cache.contains_store, Cache.store, Cache.buildCount_countBuild, Cache.buildCount_put,
      faithful.counted other]
    by_cases same : language = other
    · subst same
      simp [Cache.contains_eq_isSome, absent]
    · simp [same]

theorem compiled_of_held (held : cache.get? language = some query) :
    compiled engine support language cache = (.ok query, [], cache) := by
  simp [compiled, Cache.getOrBuild, held]

theorem compiled_of_failed {fault : AnalysisFault} (absent : cache.get? language = none)
    (failed : compile engine support language = .error fault) :
    compiled engine support language cache = (.error fault, [], cache) := by
  simp [compiled, Cache.getOrBuild, absent, failed]

theorem compiled_of_built (absent : cache.get? language = none)
    (built : compile engine support language = .ok query) :
    compiled engine support language cache =
      (.ok query, compiledLogs engine language query, cache.store language query) := by
  simp [compiled, Cache.getOrBuild, absent, built]

/-- Asking for the query of a language gives what would be compiled anew, and the query is in the cache then. -/
theorem Faithful.ask (faithful : Faithful engine support cache) (language : Language) :
    (compiled engine support language cache).1 = compile engine support language ∧
    Faithful engine support (compiled engine support language cache).2.2 ∧
    ∀ other, (compiled engine support language cache).2.2.contains other = true ↔
      cache.contains other = true ∨ (language = other ∧ ∃ query, compile engine support language = .ok query) := by
  cases held : cache.get? language with
  | some query =>
    have built := faithful.genuine language query held
    rw [compiled_of_held held]
    refine ⟨built.symm, faithful, fun other => ⟨.inl, ?_⟩⟩
    rintro (before | ⟨rfl, -⟩)
    · exact before
    · simp [Cache.contains_eq_isSome, held]
  | none =>
    cases built : compile engine support language with
    | error fault =>
      rw [compiled_of_failed held built]
      exact ⟨rfl, faithful, by simp⟩
    | ok query =>
      rw [compiled_of_built held built]
      exact ⟨rfl, faithful.store held built, by simp [Cache.contains_store]⟩

/-! ### Calls one after another -/

theorem analyze_of_unknown {fault : ResolutionFault} (named : Language.ofPath path = .error fault) :
    analyze engine support disk path cache = (.failed ⟨.resolution fault, some path⟩, [], cache) := by
  simp only [analyze, named]

theorem analyze_of_known (named : Language.ofPath path = .ok language) :
    analyze engine support disk path cache =
      ((match (compiled engine support language cache).1 with
        | .error fault => .failed ⟨fault, some path⟩
        | .ok query => countFile engine disk language query path),
      (compiled engine support language cache).2) := by
  simp only [analyze, named]
  split <;> simp [*]

/-- One call comes out as for the file by itself. It leaves a faithful cache, which has the language of the file
if the call came past the compilation. -/
theorem Faithful.call (faithful : Faithful engine support cache) (disk : Disk) (path : Path) :
    (analyze engine support disk path cache).1 = judge engine support disk path ∧
    Faithful engine support (analyze engine support disk path cache).2.2 ∧
    ∀ language, (analyze engine support disk path cache).2.2.contains language = true ↔
      cache.contains language = true ∨
        (Language.ofPath path = .ok language ∧ (judge engine support disk path).pastCompilation = true) := by
  cases named : Language.ofPath path with
  | error fault =>
    rw [analyze_of_unknown named, judge_of_unknown named]
    exact ⟨rfl, faithful, by simp⟩
  | ok language =>
    obtain ⟨same, kept, held⟩ := faithful.ask language
    rw [analyze_of_known named]
    refine ⟨?_, kept, fun other => ?_⟩
    · simp only [judge, named, same]
    · rw [held other, pastCompilation_judge_iff named, Except.ok.injEq]

/-- The files are analysed one after another with one cache. -/
def analyzeAll (engine : Engine) (support : Support) (disk : Disk) :
    List Path → QueryCache engine → List (Path × Outcome) × QueryCache engine
  | [], cache => ([], cache)
  | path :: rest, cache =>
    let called := analyze engine support disk path cache
    let others := analyzeAll engine support disk rest called.2.2
    ((path, called.1) :: others.1, others.2)

theorem Faithful.calls (faithful : Faithful engine support cache) (disk : Disk) (paths : List Path) :
    (analyzeAll engine support disk paths cache).1 = paths.map (fun path => (path, judge engine support disk path)) ∧
    Faithful engine support (analyzeAll engine support disk paths cache).2 ∧
    ∀ language, (analyzeAll engine support disk paths cache).2.contains language = true ↔
      cache.contains language = true ∨ ∃ path ∈ paths, Language.ofPath path = .ok language ∧
        (judge engine support disk path).pastCompilation = true := by
  induction paths generalizing cache with
  | nil => exact ⟨rfl, faithful, by simp [analyzeAll]⟩
  | cons path rest ih =>
    obtain ⟨outcome, kept, held⟩ := faithful.call disk path
    obtain ⟨outcomes, keptAfter, heldAfter⟩ := ih kept
    rw [analyzeAll, outcome, outcomes]
    refine ⟨rfl, keptAfter, fun language => ?_⟩
    rw [heldAfter language, held language]
    simp only [List.mem_cons, exists_eq_or_imp, or_assoc]

/-- Each of a sequence of calls comes out as a call on that file alone with an empty cache, and reports the first
step that fails. After them the cache has the languages whose query a call came to use, each built once. -/
theorem calls_as_alone (engine : Engine) (support : Support) (disk : Disk) (paths : List Path) :
    (analyzeAll engine support disk paths .empty).1 =
      paths.map (fun path => (path, (analyze engine support disk path .empty).1)) ∧
    (∀ call ∈ (analyzeAll engine support disk paths .empty).1, Reports engine support disk call.1 call.2) ∧
    ∀ language,
      ((analyzeAll engine support disk paths .empty).2.contains language = true ↔
        ∃ call ∈ (analyzeAll engine support disk paths .empty).1, Language.ofPath call.1 = .ok language ∧
          call.2.pastCompilation = true) ∧
      (analyzeAll engine support disk paths .empty).2.buildCount language =
        if (analyzeAll engine support disk paths .empty).2.contains language then 1 else 0 := by
  have faithful := faithful_empty engine support
  have alone : ∀ path, (analyze engine support disk path .empty).1 = judge engine support disk path :=
    fun path => (faithful.call disk path).1
  obtain ⟨calls, kept, held⟩ := faithful.calls disk paths
  rw [calls]
  refine ⟨by simp only [alone], fun call listed => ?_, fun language => ⟨?_, kept.counted language⟩⟩
  · obtain ⟨path, -, rfl⟩ := List.mem_map.mp listed
    dsimp only
    exact reports_judge engine support disk path
  · rw [held language]
    simp [Cache.contains, Cache.empty]

/-! ### A path with a null character -/

theorem analyze_of_null (named : Language.ofPath path = .ok language)
    (built : compile engine support language = .ok query) (null : path.hasNull = true) :
    (analyze engine support disk path .empty).1 = .crashed (.told "ValueError" "embedded null byte") := by
  have unread : disk.readBytes path = .error .nullInPath := Disk.readBytes_eq_nullInPath_iff.mpr null
  rw [((faithful_empty engine support).call disk path).1, judge_of_compiled named built, countFile, unread]
  rfl

/-- An engine that takes any query and any source, and finds nothing. -/
def idleEngine : Engine where
  Query := Unit
  Tree := Unit
  Node := Empty
  compile _ _ := .ok ()
  captureTotal _ := 0
  parse _ _ := some ()
  search _ _ := []

/-- All languages, with a query that asks for nothing. -/
def blankQuery : Support := { Support.ofEnabled Language.all with query? := some "" }

theorem compile_idleEngine (language : Language) : compile idleEngine blankQuery language = .ok () := by
  cases language <;> rfl

/-- An empty disk. -/
def bareDisk : Disk where
  items := []
  here := []
  home := "/"
  locked := []
  sealed := []
  tree := by decide

/-- The analysis ends neither with counts nor with a failure that names the file. -/
theorem null_path_crashes :
    (analyze idleEngine blankQuery bareDisk ⟨0, ["nul\x00.py"]⟩ .empty).1 =
      .crashed (.told "ValueError" "embedded null byte") := by
  have suffix : Path.extension ⟨0, ["nul\x00.py"]⟩ = ".py" := rfl
  have named : Language.ofPath ⟨0, ["nul\x00.py"]⟩ = .ok .python := by
    rw [Language.ofPath, suffix]
    rfl
  exact analyze_of_null named (compile_idleEngine .python) (by decide +kernel)

end Analyzer

end SyntaxTally
