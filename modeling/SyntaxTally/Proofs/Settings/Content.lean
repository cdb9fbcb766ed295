import SyntaxTally.Proofs.Text.Blank
import SyntaxTally.Proofs.Text.Utf8
import SyntaxTally.Settings.File

/-!
# What is in a settings file

However texts are read into values, a text `Holds` settings, or it `Breaks` the program, or neither: then a fault of
the file is told (`ofText_cases`). What a text `Holds` is said of its value: the value `Fits` unless it is not empty
and no mapping, or has a width that is not positive, or a list with a number that cannot be written.
-/
namespace SyntaxTally

open Files Yaml Number

variable {text : List Char} {value : Value} {items : List Value} {crash : Crash} {name : String} {fault : SettingsFault}

/-! ### Lists of texts -/

/-- A list with a number in it that cannot be written. -/
def HasOverlong (value : Value) : Prop := ∃ items n, value = .sequence items ∧ .scalar (.int n) ∈ items ∧ Overlong n

theorem listed?_eq_error_iff : value.listed? = .error crash ↔
    crash = Number.tooLong ∧ ∃ n, value = .scalar (.int n) ∧ Overlong n := by
  cases value with
  | scalar scalar =>
    cases scalar with
    | int n =>
      have only : (∃ m, Value.scalar (.int n) = .scalar (.int m) ∧ Overlong m) ↔ Overlong n := by simp
      rw [only, ← Number.numeral_eq_error_iff, Value.listed?, Scalar.listed?]
      cases Number.numeral n <;> simp [Except.map]
    | null | bool | float | string | binary | time => simp [Value.listed?, Scalar.listed?]
  | sequence | mapping | set | pair | deep => simp [Value.listed?]

theorem mapM_listed?_eq_error_iff : items.mapM Value.listed? = .error crash ↔
    crash = Number.tooLong ∧ ∃ n, .scalar (.int n) ∈ items ∧ Overlong n := by
  induction items with
  | nil => simp [pure, Except.pure]
  | cons item items ih =>
    rw [List.mapM_cons]
    cases first : item.listed? with
    | error early =>
      obtain ⟨rfl, n, rfl, long⟩ := listed?_eq_error_iff.mp first
      simp only [bind, Except.bind, Except.error.injEq]
      exact ⟨fun same => ⟨same.symm, n, List.mem_cons_self, long⟩, fun fails => fails.1.symm⟩
    | ok shown =>
      have short : ∀ n, .scalar (.int n) = item → ¬ Overlong n := by
        rintro n rfl long
        cases first.symm.trans (listed?_eq_error_iff.mpr ⟨rfl, n, rfl, long⟩)
      have rest : (∃ n, .scalar (.int n) ∈ item :: items ∧ Overlong n) ↔
          ∃ n, .scalar (.int n) ∈ items ∧ Overlong n := by
        constructor
        · rintro ⟨n, member, long⟩
          exact ⟨n, (List.mem_cons.mp member).resolve_left fun same => short n same long, long⟩
        · rintro ⟨n, member, long⟩
          exact ⟨n, List.mem_cons_of_mem item member, long⟩
      rw [rest, ← ih]
      cases items.mapM Value.listed? <;> simp [bind, Except.bind, pure, Except.pure]

theorem asStrings_eq_error_iff : value.asStrings = .error crash ↔ crash = Number.tooLong ∧ HasOverlong value := by
  cases value with
  | sequence items =>
    have own : HasOverlong (.sequence items) ↔ ∃ n, .scalar (.int n) ∈ items ∧ Overlong n := by
      simp [HasOverlong]
    rw [own, ← mapM_listed?_eq_error_iff, Value.asStrings]
    cases items.mapM Value.listed? <;> simp [bind, Except.bind]
  | scalar scalar => cases scalar <;> simp [Value.asStrings, HasOverlong]
  | mapping | set | pair | deep => simp [Value.asStrings, HasOverlong]

namespace Settings

/-- A field is a list with a number that cannot be written. -/
def ListTooLong (value : Value) (name : String) : Prop := ∃ found, value.field? name = some found ∧ HasOverlong found

theorem fieldStrings_eq_error_iff : fieldStrings value name = .error fault ↔
    fault = .crash Number.tooLong ∧ ListTooLong value name := by
  rw [fieldStrings, ListTooLong]
  cases value.field? name with
  | none => simp
  | some found =>
    cases listed : found.asStrings with
    | error crash =>
      obtain ⟨rfl, long⟩ := asStrings_eq_error_iff.mp listed
      simp [Except.mapError, listed, long, eq_comm]
    | ok texts =>
      have short : ¬ HasOverlong found := fun long => by
        cases listed.symm.trans (asStrings_eq_error_iff.mpr ⟨rfl, long⟩)
      simp [Except.mapError, listed, short]

/-! ### Values -/

/-- One of the lists of excluded paths has a number that cannot be written. -/
def PathsTooLong (value : Value) : Prop :=
  ListTooLong ((value.field? "walk").getD .null) "exclude_paths" ∨ ListTooLong value "exclude_paths"

/-- The width of the table is a number, but not a positive one. -/
def BadWidth (value : Value) : Prop := ∃ width, fieldInt value "table_width" = some width ∧ width ≤ 0

theorem walkOfValue_of_long (long : PathsTooLong value) : walkOfValue value = .error (.crash Number.tooLong) := by
  unfold walkOfValue
  dsimp only
  cases first : fieldStrings ((value.field? "walk").getD .null) "exclude_paths" with
  | error fault =>
    obtain ⟨rfl, -⟩ := fieldStrings_eq_error_iff.mp first
    rfl
  | ok paths =>
    have second : fieldStrings value "exclude_paths" = .error (.crash Number.tooLong) := by
      refine fieldStrings_eq_error_iff.mpr ⟨rfl, long.resolve_left fun early => ?_⟩
      cases first.symm.trans (fieldStrings_eq_error_iff.mpr ⟨rfl, early⟩)
    rw [second]
    rfl

theorem exists_fieldStrings (short : ¬ ListTooLong value name) : ∃ texts, fieldStrings value name = .ok texts := by
  cases found : fieldStrings value name with
  | error fault => exact absurd (fieldStrings_eq_error_iff.mp found).2 short
  | ok texts => exact ⟨texts, rfl⟩

theorem exists_walkOfValue (short : ¬ PathsTooLong value) : ∃ walk, walkOfValue value = .ok walk := by
  rw [PathsTooLong, not_or] at short
  obtain ⟨paths, first⟩ := exists_fieldStrings short.1
  obtain ⟨others, second⟩ := exists_fieldStrings short.2
  unfold walkOfValue
  dsimp only
  rw [first, second]
  exact ⟨_, rfl⟩

theorem tableWidth_nonpos_iff : (fieldInt value "table_width").getD defaultTableWidth ≤ 0 ↔ BadWidth value := by
  rw [BadWidth]
  cases fieldInt value "table_width" with
  | none => simp [defaultTableWidth]
  | some width => simp

/-- What is looked at first decides: the excluded paths, then the width, then the languages. -/
theorem ofValue_cases (value : Value) :
    PathsTooLong value ∧ ofValue value = .error (.crash Number.tooLong) ∨
    ¬ PathsTooLong value ∧ BadWidth value ∧ ofValue value = .error .badTableWidth ∨
    ¬ PathsTooLong value ∧ ¬ BadWidth value ∧ ListTooLong value "languages" ∧
      ofValue value = .error (.crash Number.tooLong) ∨
    ¬ PathsTooLong value ∧ ¬ BadWidth value ∧ ¬ ListTooLong value "languages" ∧
      ∃ settings, ofValue value = .ok settings := by
  unfold ofValue
  by_cases long : PathsTooLong value
  · rw [walkOfValue_of_long long]
    exact .inl ⟨long, rfl⟩
  obtain ⟨walk, read⟩ := exists_walkOfValue long
  rw [read]
  simp only [bind, Except.bind]
  by_cases bad : BadWidth value
  · rw [if_pos (tableWidth_nonpos_iff.mpr bad)]
    exact .inr (.inl ⟨long, bad, rfl⟩)
  rw [if_neg fun nonpos => bad (tableWidth_nonpos_iff.mp nonpos)]
  by_cases languages : ListTooLong value "languages"
  · rw [fieldStrings_eq_error_iff.mpr ⟨rfl, languages⟩]
    exact .inr (.inr (.inl ⟨long, bad, languages, rfl⟩))
  · obtain ⟨texts, found⟩ := exists_fieldStrings languages
    rw [found]
    exact .inr (.inr (.inr ⟨long, bad, languages, _, rfl⟩))

/-- The settings of a whole document. -/
def ofRoot : Value → Except SettingsFault Settings
  | .mapping entries => ofValue (.mapping entries)
  | value => if value.isEmpty then .ok {} else .error .noMapping

/-- A document that holds settings: an empty value, or a mapping with a proper width and lists that can be written. -/
def Fits (value : Value) : Prop :=
  value.isEmpty = true ∨
    (∃ entries, value = .mapping entries) ∧ ¬ PathsTooLong value ∧ ¬ BadWidth value ∧ ¬ ListTooLong value "languages"

/-- A mapping that is left at a list which cannot be written. -/
def Unwritable (value : Value) : Prop :=
  (∃ entries, value = .mapping entries) ∧ (PathsTooLong value ∨ ¬ BadWidth value ∧ ListTooLong value "languages")

theorem not_listTooLong_nil (name : String) : ¬ ListTooLong (.mapping []) name := by
  rintro ⟨found, none, -⟩
  cases none

theorem fits_mapping_iff {entries : List (Value × Value)} : Fits (.mapping entries) ↔
    ¬ PathsTooLong (.mapping entries) ∧ ¬ BadWidth (.mapping entries) ∧
      ¬ ListTooLong (.mapping entries) "languages" := by
  constructor
  · rintro (empty | ⟨-, fits⟩)
    · obtain rfl : entries = [] := by simpa [Value.isEmpty] using empty
      refine ⟨?_, ?_, not_listTooLong_nil _⟩
      · rintro (⟨found, none, -⟩ | long)
        · cases none
        · exact not_listTooLong_nil _ long
      · rintro ⟨width, none, -⟩
        cases none
    · exact fits
  · exact fun fits => .inr ⟨⟨entries, rfl⟩, fits⟩

theorem ofRoot_cases (value : Value) :
    Fits value ∧ ¬ Unwritable value ∧ (∃ settings, ofRoot value = .ok settings) ∨
    ¬ Fits value ∧ Unwritable value ∧ (∃ crash, ofRoot value = .error (.crash crash)) ∨
    ¬ Fits value ∧ ¬ Unwritable value ∧ ∃ fault, ofRoot value = .error fault ∧ fault.isTold = true := by
  cases value with
  | mapping entries =>
    have own : ∃ others, Value.mapping entries = .mapping others := ⟨entries, rfl⟩
    rw [fits_mapping_iff, Unwritable, ofRoot]
    rcases ofValue_cases (.mapping entries) with ⟨long, fails⟩ | ⟨short, bad, fails⟩ |
      ⟨short, proper, long, fails⟩ | ⟨short, proper, alsoShort, succeeds⟩
    · exact .inr (.inl ⟨fun fits => fits.1 long, ⟨own, .inl long⟩, _, fails⟩)
    · refine .inr (.inr ⟨fun fits => fits.2.1 bad, ?_, _, fails, rfl⟩)
      rintro ⟨-, long | ⟨proper, -⟩⟩
      · exact short long
      · exact proper bad
    · exact .inr (.inl ⟨fun fits => fits.2.2 long, ⟨own, .inr ⟨proper, long⟩⟩, _, fails⟩)
    · refine .inl ⟨⟨short, proper, alsoShort⟩, ?_, succeeds⟩
      rintro ⟨-, long | ⟨-, long⟩⟩
      · exact short long
      · exact alsoShort long
  | scalar | sequence | set | pair | deep =>
    rw [ofRoot]
    · split
      next empty => exact .inl ⟨.inl empty, by simp [Unwritable], _, rfl⟩
      next full => exact .inr (.inr ⟨by simp [Fits, full], by simp [Unwritable], _, rfl, rfl⟩)
    · exact nofun

/-! ### Texts -/

variable (read : Reader)

/-- The text holds settings, if texts are read so. -/
def Holds (text : List Char) : Prop :=
  (∀ c ∈ text, Text.isSpace c = true) ∨ ∃ value, read (Text.newlines text) = .ok value ∧ Fits value

/-- The text ends the program: one of its values cannot be made, or one of its lists cannot be written. -/
def Breaks (text : List Char) : Prop :=
  (∃ c ∈ text, Text.isSpace c = false) ∧
    ((∃ crash, read (Text.newlines text) = .error (.impossible crash)) ∨
      ∃ value, read (Text.newlines text) = .ok value ∧ Unwritable value)

theorem ofText_cases (name : String) (text : List Char) :
    Holds read text ∧ ¬ Breaks read text ∧ (∃ settings, ofText read name (Text.newlines text) = .ok settings) ∨
    ¬ Holds read text ∧ Breaks read text ∧
      (∃ crash, ofText read name (Text.newlines text) = .error (.crash crash)) ∨
    ¬ Holds read text ∧ ¬ Breaks read text ∧
      ∃ fault, ofText read name (Text.newlines text) = .error fault ∧ fault.isTold = true := by
  by_cases blank : ∀ c ∈ text, Text.isSpace c = true
  · have empty : (Text.strip (Text.newlines text)).isEmpty = true := by
      rw [List.isEmpty_iff, Text.strip_eq_nil_iff, Text.isSpace_newlines]
      exact blank
    refine .inl ⟨.inl blank, ?_, {}, if_pos empty⟩
    rintro ⟨⟨c, member, dark⟩, -⟩
    rw [blank c member] at dark
    cases dark
  have dark : ∃ c ∈ text, Text.isSpace c = false := by simpa using blank
  have full : ¬ (Text.strip (Text.newlines text)).isEmpty = true := by
    rw [List.isEmpty_iff, Text.strip_eq_nil_iff, Text.isSpace_newlines]
    exact blank
  rw [ofText, if_neg full]
  cases made : read (Text.newlines text) with
  | error fault =>
    cases fault with
    | malformed reason => exact .inr (.inr ⟨by simp [Holds, blank, made], by simp [Breaks, made], _, rfl, rfl⟩)
    | impossible crash =>
      exact .inr (.inl ⟨by simp [Holds, blank, made], ⟨dark, .inl ⟨crash, made⟩⟩, crash, rfl⟩)
  | ok value =>
    have holds : Holds read text ↔ Fits value := by simp [Holds, blank, made]
    have breaks : Breaks read text ↔ Unwritable value := by simp [Breaks, dark, made]
    rw [holds, breaks]
    cases value <;> exact ofRoot_cases _

end Settings

end SyntaxTally
