import SyntaxTally.Ignore.Scope

/-!
# Rules for what lies below a directory

A rule names a path because its pattern fits the path. A rule for directories whose pattern has a slash also names
what lies below the pattern, taken letter by letter. `left_out_below_kept` says what this second reason does to the
subdirectories of a directory that was taken in again.
-/
namespace SyntaxTally.Ignore

namespace Rule

variable {rule : Rule} {path directory name : List Char}

/-- The rule's pattern, as a pattern, fits the path. -/
def fits (rule : Rule) (path : List Char) : Bool :=
  if rule.anchored || rule.hasSlash then globMatches path rule.pattern
  else wildcardMatches (baseName path) rule.pattern

/-- The path lies below the rule's pattern, taken letter by letter. -/
def covers (rule : Rule) (path : List Char) : Bool :=
  (rule.anchored || rule.hasSlash) && rule.directoryOnly && (rule.pattern ++ ['/']).isPrefixOf path

theorem names_eq (rule : Rule) (path : List Char) (isDir : Bool) :
    rule.names path isDir =
      (!rule.pattern.isEmpty && (!rule.directoryOnly || isDir) && (rule.fits path || rule.covers path)) := by
  unfold names fits covers
  cases rule.anchored || rule.hasSlash <;> simp

theorem names_of_fits (written : rule.pattern ≠ []) (fitting : rule.fits path = true) :
    rule.names path true = true := by
  simp [names_eq, written, fitting]

/-- A file is named only by a pattern that fits it. -/
theorem fits_of_names_file (named : rule.names path false = true) : rule.fits path = true := by
  rw [names_eq] at named
  cases only : rule.directoryOnly <;> simp_all [covers]

theorem names_of_unfit (unfit : rule.fits path = false) :
    rule.names path true = (!rule.pattern.isEmpty && rule.covers path) := by
  simp [names_eq, unfit]

/-- What lies in the directory lies below the rule's pattern: the pattern is the directory, or one above it, as
it is written. -/
structure Spans (rule : Rule) (directory : List Char) : Prop where
  slashed : rule.anchored = true ∨ rule.hasSlash = true
  directories : rule.directoryOnly = true
  written : rule.pattern ≠ []
  begins : rule.pattern = directory ∨ rule.pattern ++ ['/'] <+: directory

theorem begins_iff (component : '/' ∉ name) {pattern : List Char} :
    pattern ++ ['/'] <+: directory ++ '/' :: name ↔ pattern = directory ∨ pattern ++ ['/'] <+: directory := by
  have whole : directory ++ '/' :: name = directory ++ ['/'] ++ name := by simp
  rw [whole]
  constructor
  · intro begins
    rcases List.prefix_or_prefix_of_prefix begins (List.prefix_append _ _) with shorter | longer
    · exact (List.prefix_concat_iff.mp shorter).imp_left List.append_cancel_right
    · rcases List.prefix_concat_iff.mp longer with same | inside
      · exact .inl (List.append_cancel_right same).symm
      · -- then the slash behind the pattern would lie in the name
        obtain ⟨rest, rfl⟩ := inside
        rw [List.append_assoc, List.prefix_append_right_inj] at begins
        exact absurd (begins.subset (by simp)) component
  · rintro (rfl | inside)
    · exact List.prefix_append _ _
    · exact (inside.trans (List.prefix_append _ _)).trans (List.prefix_append _ _)

theorem covers_iff (component : '/' ∉ name) :
    (!rule.pattern.isEmpty && rule.covers (directory ++ '/' :: name)) = true ↔ rule.Spans directory := by
  simp only [covers, Bool.and_eq_true, Bool.or_eq_true, Bool.not_eq_true', List.isEmpty_eq_false_iff,
    List.isPrefixOf_iff_prefix, begins_iff component]
  constructor
  · rintro ⟨written, ⟨slashed, directories⟩, begins⟩
    exact ⟨slashed, directories, written, begins⟩
  · rintro ⟨slashed, directories, written, begins⟩
    exact ⟨written, ⟨slashed, directories⟩, begins⟩

theorem not_covers_component (component : '/' ∉ path) : rule.covers path = false := by
  have apart : (rule.pattern ++ ['/']).isPrefixOf path = false := by
    rw [Bool.eq_false_iff, ne_eq, List.isPrefixOf_iff_prefix]
    exact fun begins => component (begins.subset (by simp))
  simp [covers, apart]

end Rule

/-! ### The rule that decides -/

theorem getLast?_filter_iff {α : Type} {rules : List α} {named : α → Bool} {rule : α} :
    (rules.filter named).getLast? = some rule ↔
      ∃ before after, rules = before ++ rule :: after ∧ named rule = true ∧ ∀ later ∈ after, named later = false := by
  constructor
  · intro last
    obtain ⟨front, whole⟩ := List.getLast?_eq_some_iff.mp last
    obtain ⟨before, rest, rfl, -, single⟩ := List.filter_eq_append_iff.mp whole
    obtain ⟨middle, after, rfl, -, names, none⟩ := List.filter_eq_cons_iff.mp single
    refine ⟨before ++ middle, after, by simp, names, ?_⟩
    simpa using List.filter_eq_nil_iff.mp none
  · rintro ⟨before, after, rfl, names, unnamed⟩
    have none : after.filter named = [] := by
      rw [List.filter_eq_nil_iff]
      intro later member
      simp [unnamed later member]
    simp [names, none]

theorem ignored_single_iff {scope : Scope} {path seen : List Char} {isDir : Bool}
    (relative : scope.relative path = some seen) :
    ignored path isDir [scope] = true ↔
      ∃ before rule after, scope.rules = before ++ rule :: after ∧ rule.negate = false ∧
        rule.names seen isDir = true ∧ ∀ later ∈ after, later.names seen isDir = false := by
  have matching : scope.matching path isDir = scope.rules.filter (·.names seen isDir) := by
    simp [Scope.matching, relative]
  have decided : ignored path isDir [scope] = true ↔
      ∃ rule, (scope.rules.filter (·.names seen isDir)).getLast? = some rule ∧ rule.negate = false := by
    rw [ignored, List.flatMap_singleton, matching]
    cases (scope.rules.filter (·.names seen isDir)).getLast? <;> simp
  rw [decided]
  constructor
  · rintro ⟨rule, last, leaves⟩
    obtain ⟨before, after, whole, names, unnamed⟩ := getLast?_filter_iff.mp last
    exact ⟨before, rule, after, whole, leaves, names, unnamed⟩
  · rintro ⟨before, rule, after, whole, leaves, names, unnamed⟩
    exact ⟨rule, getLast?_filter_iff.mpr ⟨before, after, whole, names, unnamed⟩, leaves⟩

theorem not_ignored_of_unnamed {scope : Scope} {path : List Char} {isDir : Bool}
    (unnamed : ∀ seen, scope.relative path = some seen → ∀ rule ∈ scope.rules, rule.names seen isDir = false) :
    ignored path isDir [scope] = false := by
  rw [Bool.eq_false_iff]
  intro left
  cases relative : scope.relative path with
  | none => simp [ignored, Scope.matching, relative] at left
  | some seen =>
    obtain ⟨before, rule, after, whole, -, names, -⟩ := (ignored_single_iff relative).mp left
    rw [unnamed seen relative rule (by simp [whole])] at names
    cases names

/-- A path that is kept although a rule leaves it out is taken in again by a later one. -/
theorem taken_in_again {scope : Scope} {path seen : List Char} {isDir : Bool} {before after : List Rule} {rule : Rule}
    (relative : scope.relative path = some seen) (kept : ignored path isDir [scope] = false)
    (whole : scope.rules = before ++ rule :: after) (leaves : rule.negate = false)
    (named : rule.names seen isDir = true) :
    ∃ later ∈ after, later.negate = true ∧ later.names seen isDir = true := by
  have undecided := fun decided => Bool.eq_false_iff.mp kept ((ignored_single_iff relative).mpr decided)
  cases last : (after.filter (·.names seen isDir)).getLast? with
  | none =>
    have unnamed : ∀ later ∈ after, later.names seen isDir = false := by
      simpa using List.filter_eq_nil_iff.mp (List.getLast?_eq_none_iff.mp last)
    exact absurd ⟨before, rule, after, whole, leaves, named, unnamed⟩ undecided
  | some later =>
    obtain ⟨between, rest, rfl, names, unnamed⟩ := getLast?_filter_iff.mp last
    refine ⟨later, by simp, ?_, names⟩
    cases takes : later.negate with
    | true => rfl
    | false =>
      exact absurd ⟨before ++ rule :: between, later, rest, by simp [whole], takes, names, unnamed⟩ undecided

/-! ### What lies in a directory, as a scope sees it -/

theorem relative_child {scope : Scope} {directory seen : List Char} (name : List Char)
    (relative : scope.relative directory = some seen) :
    scope.relative (directory ++ '/' :: name) = some (seen ++ '/' :: name) := by
  unfold Scope.relative at relative ⊢
  split at relative
  · rename_i above
    obtain rfl := Option.some.inj relative
    rw [if_pos above]
    simp
  · rename_i below
    rw [if_neg below]
    split at relative
    · rename_i top
      obtain rfl := Option.some.inj relative
      rw [if_pos top]
    · rename_i deeper
      rw [if_neg deeper]
      split at relative
      · rename_i inside
        obtain rfl := Option.some.inj relative
        obtain ⟨rest, rfl⟩ := List.isPrefixOf_iff_prefix.mp inside
        rw [if_pos (List.isPrefixOf_iff_prefix.mpr ⟨rest ++ '/' :: name, by simp⟩)]
        simp
      · cases relative

/-- A scope that does not see the directory is that of the directory itself, or sees nothing in it either. -/
theorem relative_child_of_none {scope : Scope} {directory name seen : List Char} (component : '/' ∉ name)
    (unseen : scope.relative directory = none) (relative : scope.relative (directory ++ '/' :: name) = some seen) :
    seen = name := by
  unfold Scope.relative at unseen relative
  split at unseen
  · cases unseen
  · rename_i below
    rw [if_neg below] at relative
    split at unseen
    · cases unseen
    · rename_i deeper
      rw [if_neg deeper] at relative
      split at unseen
      · cases unseen
      · rename_i outside
        split at relative
        · rename_i inside
          rw [List.isPrefixOf_iff_prefix, Rule.begins_iff component] at inside
          rcases inside with rfl | inside
          · simpa using relative.symm
          · exact absurd (List.isPrefixOf_iff_prefix.mpr inside) outside
        · cases relative

/-- A name in a directory that is kept, which no rule's pattern fits. As a file it is kept as well. As a directory it
is left out just if the last rule that spans the directory leaves out, and then the directory owes its being kept to
a later rule, or to a pattern that does not fit the very text it consists of. -/
theorem left_out_below_kept {scope : Scope} {directory name : List Char} (component : '/' ∉ name)
    (kept : ignored directory true [scope] = false)
    (unfit : ∀ seen, scope.relative (directory ++ '/' :: name) = some seen →
      ∀ rule ∈ scope.rules, rule.fits seen = false) :
    ignored (directory ++ '/' :: name) false [scope] = false ∧
    (ignored (directory ++ '/' :: name) true [scope] = true ↔
      ∃ seen before rule after, scope.relative directory = some seen ∧
        scope.rules = before ++ rule :: after ∧ rule.negate = false ∧ rule.Spans seen ∧
        (∀ later ∈ after, ¬ later.Spans seen) ∧
        (rule.names seen true = true → ∃ later ∈ after, later.negate = true ∧ later.names seen true = true)) := by
  constructor
  · refine not_ignored_of_unnamed fun seen relative rule member => ?_
    rw [Bool.eq_false_iff]
    intro named
    have fitting := Rule.fits_of_names_file named
    rw [unfit seen relative rule member] at fitting
    cases fitting
  cases relative : scope.relative directory with
  | none =>
    have kept : ignored (directory ++ '/' :: name) true [scope] = false := by
      refine not_ignored_of_unnamed fun seen below rule member => ?_
      rw [Rule.names_of_unfit (unfit seen below rule member), relative_child_of_none component relative below,
        Rule.not_covers_component component, Bool.and_false]
    simp [kept]
  | some seen =>
    have below := relative_child name relative
    have spans : ∀ rule ∈ scope.rules,
        rule.names (seen ++ '/' :: name) true = true ↔ rule.Spans seen := fun rule member => by
      rw [Rule.names_of_unfit (unfit _ below rule member), Rule.covers_iff component]
    rw [ignored_single_iff below]
    constructor
    · rintro ⟨before, rule, after, whole, leaves, names, unnamed⟩
      refine ⟨seen, before, rule, after, rfl, whole, leaves, (spans rule (by simp [whole])).mp names,
        fun later member span => ?_, fun named => taken_in_again relative kept whole leaves named⟩
      have clash := (spans later (by simp [whole, member])).mpr span
      rw [unnamed later member] at clash
      cases clash
    · rintro ⟨_, before, rule, after, same, whole, leaves, span, others, -⟩
      obtain rfl := Option.some.inj same
      refine ⟨before, rule, after, whole, leaves, (spans rule (by simp [whole])).mpr span, fun later member => ?_⟩
      rw [Bool.eq_false_iff]
      exact fun named => others later member ((spans later (by simp [whole, member])).mp named)

/-- A directory is left out and taken in again. -/
def takenIn : Scope where
  base := []
  rules := parseLines ["a/b/".toList, "!a/b".toList]

theorem unfit_takenIn : ∀ rule ∈ takenIn.rules, rule.fits "a/b/c".toList = false := by
  have none : takenIn.rules.all (!·.fits "a/b/c".toList) = true := by decide +kernel
  simpa using none

theorem left_out_below_kept_takenIn :
    '/' ∉ "c".toList ∧ ignored "a/b".toList true [takenIn] = false ∧
    ignored "a/b/c".toList false [takenIn] = false ∧
    (ignored "a/b/c".toList true [takenIn] = true ↔
      ∃ seen before rule after, takenIn.relative "a/b".toList = some seen ∧
        takenIn.rules = before ++ rule :: after ∧ rule.negate = false ∧ rule.Spans seen ∧
        (∀ later ∈ after, ¬ later.Spans seen) ∧
        (rule.names seen true = true → ∃ later ∈ after, later.negate = true ∧ later.names seen true = true)) := by
  have kept : ignored "a/b".toList true [takenIn] = false := by decide +kernel
  exact ⟨by decide, kept, left_out_below_kept (by decide) kept fun seen relative => by
    obtain rfl : "a/b/c".toList = seen := Option.some.inj relative
    exact unfit_takenIn⟩

theorem subdirectory_left_out :
    ignored "a/b".toList true [takenIn] = false ∧ (∀ rule ∈ takenIn.rules, rule.fits "a/b/c".toList = false) ∧
    ignored "a/b/c".toList true [takenIn] = true ∧ ignored "a/b/c".toList false [takenIn] = false := by
  refine ⟨?_, unfit_takenIn, ?_, ?_⟩ <;> decide +kernel

end SyntaxTally.Ignore
