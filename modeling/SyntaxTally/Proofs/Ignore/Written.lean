import SyntaxTally.Proofs.Ignore.Lines

/-!
# Rules as lines

A rule is written as a line: `!` if it negates, then its text, which is the pattern between the slashes that anchor it
and keep it to directories. Reading takes off the white space around a line and behind a `!`, so what is left is
`Bare`. A rule that was read from any line is the rule of the line it is written as (`rules_read_back`).
-/
namespace SyntaxTally

namespace Text

variable {text : List Char}

/-- No white space at either end. -/
structure Bare (text : List Char) : Prop where
  first : ∀ c ∈ text.head?, isSpace c = false
  last : ∀ c ∈ text.getLast?, isSpace c = false

theorem bare_strip (text : List Char) : Bare (strip text) := by
  have cut : ∀ text : List Char, ∀ c ∈ (text.dropWhile isSpace).head?, isSpace c = false := by
    intro text c first
    have outside := List.head?_dropWhile_not isSpace text
    rw [first] at outside
    exact outside
  constructor
  · intro c first
    apply cut text c
    -- the first character stays when the white space at the end goes
    rw [strip, trim, List.head?_reverse] at first
    obtain ⟨front, split⟩ := List.getLast?_eq_some_iff.mp first
    have whole := congrArg List.reverse
      (List.takeWhile_append_dropWhile (p := isSpace) (l := (text.dropWhile isSpace).reverse))
    rw [split, List.reverse_reverse] at whole
    rw [← whole]
    simp
  · intro c last
    apply cut (text.dropWhile isSpace).reverse c
    rwa [strip, trim, List.getLast?_reverse] at last

theorem dropWhile_of_head? (first : ∀ c ∈ text.head?, isSpace c = false) : text.dropWhile isSpace = text := by
  cases text with
  | nil => rfl
  | cons c rest => rw [List.dropWhile_cons_of_neg (by simp [first c rfl])]

theorem Bare.strip_eq (bare : Bare text) : strip text = text := by
  have behind : text.reverse.dropWhile isSpace = text.reverse := by
    apply dropWhile_of_head?
    rw [List.head?_reverse]
    exact bare.last
  rw [strip, trim, dropWhile_of_head? bare.first, behind, List.reverse_reverse]

theorem Bare.cons {c : Char} (bare : Bare text) (some : text ≠ []) (shown : isSpace c = false) : Bare (c :: text) where
  first d is := by
    obtain rfl := Option.some.inj is
    exact shown
  last d is := by
    rw [List.getLast?_cons_of_ne_nil some] at is
    exact bare.last d is

end Text

namespace Ignore

open Text

namespace Rule

/-- The pattern with the slashes around it. -/
def text (rule : Rule) : List Char :=
  (if rule.anchored then ['/'] else []) ++ rule.pattern ++ (if rule.directoryOnly then ['/'] else [])

/-- The rule as a line of an ignore file. -/
def line (rule : Rule) : List Char := (if rule.negate then ['!'] else []) ++ rule.text

/-- The slashes in the text of the rule are read as the rule has them. -/
structure Proper (rule : Rule) : Prop where
  nonempty : rule.text ≠ []
  loose : rule.anchored = false → rule.pattern.head? ≠ some '/'
  anyKind : rule.directoryOnly = false → rule.text.getLast? ≠ some '/'
  counted : rule.hasSlash = rule.pattern.contains '/'

variable {rule : Rule} {written : List Char} {negate : Bool}

/-! ### Patterns -/

theorem exists_proper {written : List Char} (nonempty : written ≠ []) (negate : Bool) :
    ∃ rule : Rule, rule.text = written ∧ rule.Proper ∧ rule.negate = negate := by
  obtain ⟨inner, directoryOnly, split, anyKind⟩ : ∃ inner directoryOnly,
      written = inner ++ (if directoryOnly then ['/'] else []) ∧
        (directoryOnly = false → written.getLast? ≠ some '/') := by
    by_cases last : written.getLast? = some '/'
    · obtain ⟨inner, split⟩ := List.getLast?_eq_some_iff.mp last
      exact ⟨inner, true, split, by simp⟩
    · exact ⟨written, false, by simp, fun _ => last⟩
  obtain ⟨pattern, anchored, rest, loose⟩ : ∃ pattern anchored,
      inner = (if anchored then ['/'] else []) ++ pattern ∧ (anchored = false → pattern.head? ≠ some '/') := by
    by_cases first : inner.head? = some '/'
    · obtain ⟨pattern, rest⟩ := List.head?_eq_some_iff.mp first
      exact ⟨pattern, true, rest, by simp⟩
    · exact ⟨inner, false, rfl, fun _ => first⟩
  subst rest
  subst split
  exact ⟨⟨pattern, directoryOnly, anchored, negate, pattern.contains '/'⟩, rfl, ⟨nonempty, loose, anyKind, rfl⟩, rfl⟩

theorem ofPattern?_of_proper (proper : rule.Proper) (stripped : strip written = rule.text) :
    ofPattern? written rule.negate = some rule := by
  have last : rule.text.getLast? = some '/' ↔ rule.directoryOnly = true := by
    cases only : rule.directoryOnly with
    | false => simpa using proper.anyKind only
    | true => simp [text, only]
  have front : (if rule.directoryOnly then rule.text.dropLast else rule.text) =
      (if rule.anchored then ['/'] else []) ++ rule.pattern := by
    cases only : rule.directoryOnly <;> simp [text, only]
  have first : ((if rule.anchored then ['/'] else []) ++ rule.pattern).head? = some '/' ↔ rule.anchored = true := by
    cases anchored : rule.anchored with
    | false => simpa using proper.loose anchored
    | true => simp
  have back : (if rule.anchored then ((if rule.anchored then ['/'] else []) ++ rule.pattern).tail
      else (if rule.anchored then ['/'] else []) ++ rule.pattern) = rule.pattern := by
    cases rule.anchored <;> simp
  unfold ofPattern?
  rw [stripped]
  simp only [List.isEmpty_iff, proper.nonempty, if_false, last, first, front, back, ← proper.counted,
    Bool.decide_eq_true]

theorem ofPattern?_eq_some_iff :
    ofPattern? written negate = some rule ↔ strip written = rule.text ∧ rule.Proper ∧ rule.negate = negate := by
  constructor
  · intro read
    have nonempty : strip written ≠ [] := by
      intro empty
      simp [ofPattern?, empty] at read
    obtain ⟨other, same, proper, rfl⟩ := exists_proper nonempty negate
    rw [ofPattern?_of_proper proper same.symm] at read
    obtain rfl := Option.some.inj read
    exact ⟨same.symm, proper, rfl⟩
  · rintro ⟨stripped, proper, rfl⟩
    exact ofPattern?_of_proper proper stripped

/-! ### Lines -/

/-- The text does not begin as a comment or a negation does. -/
def Unmarked (text : List Char) : Prop := text.head? ≠ some '#' ∧ text.head? ≠ some '!'

theorem bare_text_of_ofPattern? (read : ofPattern? written negate = some rule) : Bare rule.text := by
  rw [← (ofPattern?_eq_some_iff.mp read).1]
  exact bare_strip written

theorem of_ofLine? (read : ofLine? written = some rule) :
    rule.Proper ∧ Bare rule.text ∧ (rule.negate = false → Unmarked rule.text) := by
  unfold ofLine? at read
  split at read
  · cases read
  · cases read
  · obtain ⟨-, proper, negated⟩ := ofPattern?_eq_some_iff.mp read
    exact ⟨proper, bare_text_of_ofPattern? read, by simp [negated]⟩
  · rename_i blank comment negation
    obtain ⟨same, proper, -⟩ := ofPattern?_eq_some_iff.mp read
    rw [(bare_strip written).strip_eq] at same
    refine ⟨proper, bare_text_of_ofPattern? read, fun _ => ⟨?_, ?_⟩⟩
    · intro first
      obtain ⟨rest, split⟩ := List.head?_eq_some_iff.mp first
      exact comment rest (same.trans split)
    · intro first
      obtain ⟨rest, split⟩ := List.head?_eq_some_iff.mp first
      exact negation rest (same.trans split)

/-- What was read from some line is read from the line it is written as. -/
theorem ofLine?_line (read : ofLine? written = some rule) : ofLine? rule.line = some rule := by
  obtain ⟨proper, bare, unmarked⟩ := of_ofLine? read
  have again : ofPattern? rule.text rule.negate = some rule := ofPattern?_of_proper proper bare.strip_eq
  unfold ofLine? line
  cases negated : rule.negate with
  | true =>
    have marked : strip ('!' :: rule.text) = '!' :: rule.text := (bare.cons proper.nonempty (by decide)).strip_eq
    rw [if_pos rfl, List.singleton_append, marked]
    rw [negated] at again
    exact again
  | false =>
    rw [if_neg (by simp), List.nil_append, bare.strip_eq]
    rw [negated] at again
    split
    next empty => exact absurd empty proper.nonempty
    next rest comment => exact absurd (congrArg List.head? comment) (unmarked negated).1
    next rest negation => exact absurd (congrArg List.head? negation) (unmarked negated).2
    next => exact again

end Rule

/-- Every rule that lines give is the one rule of the line it is written as, and the rules of lines behind others
come behind theirs. -/
theorem rules_read_back (lines more : List (List Char)) :
    (∀ rule ∈ parseLines lines, parseLines [rule.line] = [rule]) ∧
    parseLines (lines ++ more) = parseLines lines ++ parseLines more := by
  refine ⟨fun rule listed => ?_, parseLines_append lines more⟩
  obtain ⟨written, -, read⟩ := List.mem_filterMap.mp listed
  rw [parseLines, List.filterMap_cons_some (Rule.ofLine?_line read), List.filterMap_nil]

/-- Blanks inside the line, two marks and two slashes. -/
def crowdedLines : List (List Char) := [" ! /a /\u3000".toList, "!!x".toList, "//".toList]

theorem rules_read_back_crowdedLines :
    (⟨"a ".toList, true, true, true, false⟩ : Rule) ∈ parseLines crowdedLines ∧
    parseLines ["!/a /".toList] = [⟨"a ".toList, true, true, true, false⟩] ∧
    (⟨[], true, true, false, false⟩ : Rule) ∈ parseLines crowdedLines ∧
    parseLines ["//".toList] = [⟨[], true, true, false, false⟩] := by
  have spaced : (⟨"a ".toList, true, true, true, false⟩ : Rule) ∈ parseLines crowdedLines := by decide
  have slashes : (⟨[], true, true, false, false⟩ : Rule) ∈ parseLines crowdedLines := by decide
  have back := (rules_read_back crowdedLines []).1
  exact ⟨spaced, back _ spaced, slashes, back _ slashes⟩

end Ignore

end SyntaxTally
