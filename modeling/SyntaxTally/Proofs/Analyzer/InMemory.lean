import Mathlib.Tactic.FinCases
import SyntaxTally.Proofs.Analyzer
import SyntaxTally.Proofs.Text.Utf8

/-!
# Files and texts in memory

A file is counted as its text would be in memory: decoding is strict, so the bytes that go to the parser are the
encoding of that text. The engine is left open, and the parser may even have effects: `analyzeWith` and
`analyzeTextWith` are the analyses with any such parser, and with that of the engine they are `analyze` and
`analyzeText`. On bytes that are no text the parser is not asked, so that it has no effects then
(`file_counts_as_text`).
-/
namespace SyntaxTally

open Files Text

/-! ### Any parser -/

namespace Analyzer

/-- A parser of bytes, with the effects it has. -/
abbrev Parser (engine : Engine) (m : Type → Type) : Type := Language → List UInt8 → m (Option engine.Tree)

section

variable {engine : Engine} {m : Type → Type} [Monad m] (parse : Parser engine m)

def countWith (language : Language) (query : engine.Query) (bytes : List UInt8) (path : Option Path) :
    m (Except AnalysisError Counts) := do
  match ← parse language bytes with
  | some tree => return .ok (captureCounts (engine.search query tree))
  | none => return .error ⟨.treeless path, path⟩

/-- How the counting of a file's bytes ends the analysis. -/
def outcomeOf : Except AnalysisError Counts → Outcome
  | .ok counts => .counted counts
  | .error error => .failed error

def countFileWith (disk : Disk) (language : Language) (query : engine.Query) (path : Path) : m Outcome :=
  match disk.readBytes path with
  | .error .nullInPath => return .crashed (.told "ValueError" Fault.nullInPath.text)
  | .error fault => return .failed ⟨.unreadable path fault, some path⟩
  | .ok bytes =>
    match decodeUtf8 bytes with
    | .error fault => return .failed ⟨.undecodable path fault.reason, some path⟩
    | .ok _ => outcomeOf <$> countWith parse language query bytes (some path)

def analyzeWith (support : Support) (disk : Disk) (path : Path) (cache : QueryCache engine) :
    m (Outcome × List Log.Record × QueryCache engine) :=
  match Language.ofPath path with
  | .error fault => return (.failed ⟨.resolution fault, some path⟩, [], cache)
  | .ok language =>
    match compiled engine support language cache with
    | (.error fault, after) => return (.failed ⟨fault, some path⟩, after)
    | (.ok query, after) => (·, after) <$> countFileWith parse disk language query path

def analyzeTextWith (support : Support) (language : Language) (text : List Char) (cache : QueryCache engine) :
    m (Except AnalysisError Counts × List Log.Record × QueryCache engine) :=
  match compiled engine support language cache with
  | (.error fault, after) => return (.error ⟨fault, none⟩, after)
  | (.ok query, after) => (·, after) <$> countWith parse language query (encodeUtf8 text) none

end

/-- The parser of the engine, which has no effects. -/
def ownParser (engine : Engine) : Parser engine Id := engine.parse

variable {engine : Engine} {support : Support} {disk : Disk} {path : Path} {language : Language}
  {query : engine.Query} {cache : QueryCache engine} {bytes : List UInt8} {text : List Char}

theorem countWith_own (path : Option Path) :
    countWith (ownParser engine) language query bytes path =
      (count engine language query bytes path).mapError (⟨·, path⟩) := by
  unfold countWith count ownParser
  cases engine.parse language bytes <;> rfl

theorem countFileWith_own :
    countFileWith (ownParser engine) disk language query path = countFile engine disk language query path := by
  unfold countFileWith countFile
  cases read : disk.readBytes path with
  | error fault => cases fault <;> rfl
  | ok bytes =>
    dsimp only
    cases decoded : decodeUtf8 bytes with
    | error fault => rfl
    | ok text =>
      dsimp only
      rw [countWith_own]
      cases count engine language query bytes (some path) <;> rfl

theorem analyzeWith_own :
    analyzeWith (ownParser engine) support disk path cache = analyze engine support disk path cache := by
  unfold analyzeWith analyze
  cases named : Language.ofPath path with
  | error fault => rfl
  | ok language =>
    dsimp only
    rcases compiled engine support language cache with ⟨result, after⟩
    cases result with
    | error fault => rfl
    | ok query =>
      dsimp only
      rw [countFileWith_own]
      rfl

theorem analyzeTextWith_own :
    analyzeTextWith (ownParser engine) support language text cache =
      analyzeText engine support language text cache := by
  unfold analyzeTextWith analyzeText
  rcases compiled engine support language cache with ⟨result, after⟩
  cases result with
  | error fault => rfl
  | ok query =>
    dsimp only
    rw [countWith_own]
    rfl

/-! ### The same text in a file -/

theorem compile_of_compiled {fault : AnalysisFault}
    (failed : (compiled engine support language cache).1 = .error fault) :
    compile engine support language = .error fault := by
  cases held : cache.get? language with
  | some query =>
    rw [compiled_of_held held] at failed
    cases failed
  | none =>
    cases built : compile engine support language with
    | error other => rwa [compiled_of_failed held built] at failed
    | ok query =>
      rw [compiled_of_built held built] at failed
      cases failed

theorem compiled_again :
    (compiled engine support language (compiled engine support language cache).2.2).1 =
      (compiled engine support language cache).1 := by
  cases held : cache.get? language with
  | some query => rw [compiled_of_held held, compiled_of_held held]
  | none =>
    cases built : compile engine support language with
    | error fault => rw [compiled_of_failed held built, compiled_of_failed held built]
    | ok query =>
      have stored : (cache.store language query).get? language = some query := by
        rw [Cache.store, Cache.get?_countBuild, Cache.get?_put]
      rw [compiled_of_built held built, compiled_of_held stored]

end Analyzer

/-- A fault of a text in memory, told of a file. -/
def AnalysisFault.inFile (path : Path) : AnalysisFault → AnalysisFault
  | treeless _ => treeless (some path)
  | fault => fault

/-- What becomes of a text in memory, told of a file. -/
def Outcome.inFile (path : Path) : Except AnalysisError Counts → Outcome
  | .ok counts => .counted counts
  | .error error => .failed ⟨error.fault.inFile path, some path⟩

namespace Analyzer

variable {engine : Engine} {support : Support} {disk : Disk} {path : Path} {language : Language}
  {query : engine.Query} {cache : QueryCache engine} {bytes : List UInt8} {text : List Char}

theorem inFile_of_compile {fault : AnalysisFault} (failed : compile engine support language = .error fault) :
    fault.inFile path = fault := by
  have about := step?_of_compile failed
  cases fault with
  | treeless => cases about
  | _ => rfl

section

variable {m : Type → Type} [Monad m] [LawfulMonad m] (parse : Parser engine m)

theorem countWith_inFile (language : Language) (query : engine.Query) (bytes : List UInt8) (path : Path) :
    outcomeOf <$> countWith parse language query bytes (some path) =
      Outcome.inFile path <$> countWith parse language query bytes none := by
  unfold countWith
  rw [map_bind, map_bind]
  apply bind_congr
  intro parsed
  cases parsed <;> rw [map_pure, map_pure] <;> rfl

theorem analyzeWith_of_text (support : Support) (cache : QueryCache engine)
    (named : Language.ofPath path = .ok language) (read : disk.readBytes path = .ok (encodeUtf8 text)) :
    analyzeWith parse support disk path cache =
      (fun told => (Outcome.inFile path told.1, told.2)) <$> analyzeTextWith parse support language text cache := by
  unfold analyzeWith analyzeTextWith
  rw [named]
  dsimp only
  cases asked : compiled engine support language cache with
  | mk result after =>
    cases result with
    | error fault =>
      have failed : compile engine support language = .error fault := compile_of_compiled (congrArg Prod.fst asked)
      dsimp only
      rw [map_pure, Outcome.inFile, inFile_of_compile failed]
    | ok query =>
      dsimp only
      unfold countFileWith
      rw [read]
      dsimp only
      rw [decodeUtf8_eq_ok_iff.mpr rfl]
      dsimp only
      rw [countWith_inFile, Functor.map_map, Functor.map_map]

end

/-- A file and a text in memory come to the same: the same counts, or failures of one kind, of which that of the file
names it and that of the text names none. -/
inductive Agree (path : Path) : Outcome → Except AnalysisError Counts → Prop where
  | counted (counts : Counts) : Agree path (.counted counts) (.ok counts)
  | failed {fault other : AnalysisFault} (same : fault.kind = other.kind) (about : fault.kind.isA .analysis = true) :
    Agree path (.failed ⟨fault, some path⟩) (.error ⟨other, none⟩)

theorem isA_of_step? {fault : AnalysisFault} {step : AnalysisStep} (about : fault.step? = some step) :
    fault.kind.isA .analysis = true := by
  unfold AnalysisFault.step? at about
  revert about
  cases fault.kind <;> intro about <;> first | rfl | cases about

theorem agree_inFile (path : Path) (engine : Engine) (support : Support) (language : Language) (text : List Char)
    (cache : QueryCache engine) :
    Agree path (Outcome.inFile path (analyzeText engine support language text cache).1)
      (analyzeText engine support language text cache).1 := by
  unfold analyzeText
  cases asked : compiled engine support language cache with
  | mk result after =>
    cases result with
    | error fault =>
      have failed : compile engine support language = .error fault := compile_of_compiled (congrArg Prod.fst asked)
      dsimp only
      rw [Outcome.inFile, inFile_of_compile failed]
      exact .failed rfl (isA_of_step? (step?_of_compile failed))
    | ok query =>
      dsimp only
      unfold count
      cases engine.parse language (encodeUtf8 text) with
      | none => exact .failed rfl rfl
      | some tree => exact .counted _

theorem analyzeText_eq (engine : Engine) (support : Support) (language : Language) (text : List Char)
    (cache : QueryCache engine) :
    analyzeText engine support language text cache =
      (((compiled engine support language cache).1.mapError (⟨·, none⟩)).bind fun query =>
        (count engine language query (encodeUtf8 text) none).mapError (⟨·, none⟩),
      (compiled engine support language cache).2) := by
  unfold analyzeText
  rcases compiled engine support language cache with ⟨result, after⟩
  cases result <;> rfl

theorem analyze_of_text (engine : Engine) (support : Support) (cache : QueryCache engine)
    (named : Language.ofPath path = .ok language) (read : disk.readBytes path = .ok (encodeUtf8 text)) :
    analyze engine support disk path cache =
      (Outcome.inFile path (analyzeText engine support language text cache).1,
        (analyzeText engine support language text cache).2) := by
  rw [← analyzeWith_own, ← analyzeTextWith_own]
  exact analyzeWith_of_text (ownParser engine) support cache named read

/-! ### Bytes that are no text -/

/-- The query of the language is at hand, or can be compiled. -/
def Available (engine : Engine) (support : Support) (language : Language) (cache : QueryCache engine) : Prop :=
  (cache.get? language).isSome ∨ ∃ query, compile engine support language = .ok query

theorem Available.exists_compiled (available : Available engine support language cache) :
    ∃ query, (compiled engine support language cache).1 = .ok query := by
  cases held : cache.get? language with
  | some query => exact ⟨query, by rw [compiled_of_held held]⟩
  | none =>
    rcases available with there | ⟨query, built⟩
    · rw [held] at there
      cases there
    · exact ⟨query, by rw [compiled_of_built held built]⟩

theorem exists_fault_of_undecodable (undecodable : ∀ text, bytes ≠ encodeUtf8 text) :
    ∃ fault, decodeUtf8 bytes = .error fault := by
  cases decoded : decodeUtf8 bytes with
  | error fault => exact ⟨fault, rfl⟩
  | ok text => exact absurd (decodeUtf8_eq_ok_iff.mp decoded) (undecodable text)

theorem analyzeWith_of_undecodable {m : Type → Type} [Monad m] [LawfulMonad m] (parse : Parser engine m)
    {fault : Utf8Fault} (named : Language.ofPath path = .ok language)
    (asked : (compiled engine support language cache).1 = .ok query)
    (read : disk.readBytes path = .ok bytes) (undecodable : decodeUtf8 bytes = .error fault) :
    analyzeWith parse support disk path cache =
      pure (.failed ⟨.undecodable path fault.reason, some path⟩, (compiled engine support language cache).2) := by
  unfold analyzeWith countFileWith
  rw [named]
  dsimp only
  revert asked
  rcases compiled engine support language cache with ⟨result, after⟩
  intro asked
  obtain rfl : result = .ok query := asked
  dsimp only
  rw [read]
  dsimp only
  rw [undecodable]
  dsimp only
  rw [map_pure]

/-- A file whose bytes are the encoding of a text comes out as that text in memory, in any state of the cache and with
any parser, and also when one call comes after the other. A file whose bytes are no text is a failed decoding if its
language is available, and then no parser has any effect. -/
theorem file_counts_as_text (engine : Engine) (support : Support) (disk : Disk) (cache : QueryCache engine)
    (named : Language.ofPath path = .ok language) :
    (∀ text, disk.readBytes path = .ok (encodeUtf8 text) →
      Agree path (analyze engine support disk path cache).1 (analyzeText engine support language text cache).1 ∧
      (analyze engine support disk path cache).2 = (analyzeText engine support language text cache).2 ∧
      Agree path (analyze engine support disk path cache).1
        (analyzeText engine support language text (analyze engine support disk path cache).2.2).1 ∧
      ∀ (m : Type → Type) [Monad m] [LawfulMonad m] (parse : Parser engine m),
        analyzeWith parse support disk path cache =
          (fun told => (Outcome.inFile path told.1, told.2)) <$> analyzeTextWith parse support language text cache) ∧
    ∀ bytes, disk.readBytes path = .ok bytes → (∀ text, bytes ≠ encodeUtf8 text) →
      Available engine support language cache →
      ∃ reason, (analyze engine support disk path cache).1 = .failed ⟨.undecodable path reason, some path⟩ ∧
        ∀ (m : Type → Type) [Monad m] [LawfulMonad m] (parse : Parser engine m),
          analyzeWith parse support disk path cache = pure (analyze engine support disk path cache) := by
  constructor
  · intro text read
    have same := analyze_of_text engine support cache named read
    refine ⟨?_, ?_, ?_, ?_⟩
    · rw [same]
      exact agree_inFile path engine support language text cache
    · rw [same]
    · have after : (analyze engine support disk path cache).2 = (compiled engine support language cache).2 := by
        rw [analyze_of_known named]
      have again : (analyzeText engine support language text (analyze engine support disk path cache).2.2).1 =
          (analyzeText engine support language text cache).1 := by
        rw [analyzeText_eq, analyzeText_eq, after, compiled_again]
      rw [again, same]
      exact agree_inFile path engine support language text cache
    · intro m _ _ parse
      exact analyzeWith_of_text parse support cache named read
  · intro bytes read undecodable available
    obtain ⟨query, asked⟩ := available.exists_compiled
    obtain ⟨fault, failed⟩ := exists_fault_of_undecodable undecodable
    have outcome : analyze engine support disk path cache = _ :=
      analyzeWith_own.symm.trans (analyzeWith_of_undecodable (ownParser engine) named asked read failed)
    refine ⟨fault.reason, by rw [outcome]; rfl, ?_⟩
    intro m _ _ parse
    rw [outcome]
    exact analyzeWith_of_undecodable parse named asked read failed

/-- A file with a letter of two bytes, and one that holds half of a surrogate pair. -/
def letterAndHalf : Disk :=
  { bareDisk with
    items := [(["naive.py"], .file (encodeUtf8 "naïve = 1\n".toList)), (["half.py"], .file [0xED, 0xA0, 0x80])]
    tree := by decide }

theorem file_counts_as_text_letterAndHalf :
    letterAndHalf.readBytes ⟨0, ["naive.py"]⟩ = .ok (encodeUtf8 "naïve = 1\n".toList) ∧
    Agree ⟨0, ["naive.py"]⟩ (analyze idleEngine blankQuery letterAndHalf ⟨0, ["naive.py"]⟩ .empty).1
      (analyzeText idleEngine blankQuery .python "naïve = 1\n".toList .empty).1 ∧
    (∀ text, [0xED, 0xA0, 0x80] ≠ encodeUtf8 text) ∧
    ∃ reason, (analyze idleEngine blankQuery letterAndHalf ⟨0, ["half.py"]⟩ .empty).1 =
      .failed ⟨.undecodable ⟨0, ["half.py"]⟩ reason, some ⟨0, ["half.py"]⟩⟩ := by
  have named : ∀ stem ∈ ["naive.py", "half.py"], Language.ofPath ⟨0, [stem]⟩ = .ok .python := by
    intro stem listed
    have suffix : Path.extension ⟨0, [stem]⟩ = ".py" := by
      fin_cases listed <;> rfl
    rw [Language.ofPath, suffix]
    rfl
  have read : letterAndHalf.readBytes ⟨0, ["naive.py"]⟩ = .ok (encodeUtf8 "naïve = 1\n".toList) := by decide +kernel
  have readHalf : letterAndHalf.readBytes ⟨0, ["half.py"]⟩ = .ok [0xED, 0xA0, 0x80] := by decide +kernel
  have half : ∀ text, [0xED, 0xA0, 0x80] ≠ encodeUtf8 text := by
    intro text same
    have decoded := decodeUtf8_eq_ok_iff.mpr same
    have refused : (decodeUtf8 [0xED, 0xA0, 0x80]).isOk = false := by decide +kernel
    rw [decoded] at refused
    cases refused
  have available : Available idleEngine blankQuery .python .empty := .inr ⟨_, compile_idleEngine .python⟩
  obtain ⟨agree, -⟩ :=
    (file_counts_as_text idleEngine blankQuery letterAndHalf .empty (named "naive.py" (by decide))).1 _ read
  obtain ⟨reason, failed, -⟩ :=
    (file_counts_as_text idleEngine blankQuery letterAndHalf .empty (named "half.py" (by decide))).2 _ readHalf half
      available
  exact ⟨read, agree, half, reason, failed⟩

end Analyzer

end SyntaxTally
