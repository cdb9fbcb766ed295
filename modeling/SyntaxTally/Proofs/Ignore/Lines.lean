import SyntaxTally.Ignore.Rule
import SyntaxTally.Proofs.Text.Blank
import SyntaxTally.Proofs.Text.Utf8

/-!
# Lines added to an ignore file

`rulesOf` are the rules of an ignore file's text. Lines that are written behind a text, each with its end, add
their own rules to those of the text, whether or not the last line of the text has an end
(`rulesOf_addedLines`).
-/
namespace SyntaxTally

open Text

namespace Ignore

/-- The rules of an ignore file with this text. -/
def rulesOf (text : List Char) : List Rule := parseLines (lines (newlines text))

variable {begun text rest line : List Char}

theorem parseLines_append (lines more : List (List Char)) :
    parseLines (lines ++ more) = parseLines lines ++ parseLines more :=
  List.filterMap_append

theorem parseLines_cons (line : List Char) (lines : List (List Char)) :
    parseLines (line :: lines) = parseLines [line] ++ parseLines lines :=
  parseLines_append [line] lines

theorem linesFrom_cons {c : Char} (plain : c ≠ '\r') (begun rest : List Char) :
    linesFrom begun (c :: rest) =
      if isLineEnd c then begun.reverse :: linesFrom [] rest else linesFrom (c :: begun) rest := by
  rw [linesFrom]
  intro _ first
  exact absurd first plain

theorem linesFrom_newline (begun rest : List Char) :
    linesFrom begun ('\n' :: rest) = begun.reverse :: linesFrom [] rest :=
  linesFrom_cons (by decide) begun rest

theorem parseLines_linesFrom_nil (begun : List Char) :
    parseLines (linesFrom begun []) = parseLines [begun.reverse] := by
  cases begun <;> rfl

/-- A line feed behind a text ends its last line, or a line in which there is no rule. -/
theorem parseLines_linesFrom_append (begun text rest : List Char) :
    parseLines (linesFrom begun (newlines (text ++ '\n' :: rest))) =
      parseLines (linesFrom begun (newlines text)) ++ rulesOf rest := by
  fun_induction newlines text generalizing begun with
  | case1 =>
    rw [List.nil_append, newlines_newline, linesFrom_newline, parseLines_cons, parseLines_linesFrom_nil]
    rfl
  | case2 text ih =>
    rw [List.cons_append, List.cons_append, newlines, linesFrom_newline, linesFrom_newline, parseLines_cons, ih,
      ← List.append_assoc, ← parseLines_cons]
  | case3 text lone ih =>
    cases text with
    | nil =>
      -- the carriage return and the line feed are one line end
      show parseLines (linesFrom begun ('\n' :: newlines rest)) = parseLines (linesFrom begun ['\n']) ++ rulesOf rest
      rw [linesFrom_newline, linesFrom_newline, parseLines_cons]
      rfl
    | cons c text =>
      have alone : ∀ more, c :: (text ++ '\n' :: rest) ≠ '\n' :: more := by
        intro more same
        exact lone text (by rw [(List.cons.inj same).1])
      rw [List.cons_append, List.cons_append, newlines.eq_3 _ alone, linesFrom_newline, linesFrom_newline,
        parseLines_cons, ← List.cons_append, ih, ← List.append_assoc, ← parseLines_cons]
  | case4 c text pair lone ih =>
    rw [List.cons_append, newlines_cons lone, linesFrom_cons lone, linesFrom_cons lone]
    split
    · rw [parseLines_cons, ih, ← List.append_assoc, ← parseLines_cons]
    · exact ih (c :: begun)

theorem rulesOf_append (text rest : List Char) : rulesOf (text ++ '\n' :: rest) = rulesOf text ++ rulesOf rest :=
  parseLines_linesFrom_append [] text rest

/-- A text without a line end is one line. -/
theorem rulesOf_line (whole : ∀ c ∈ line, isLineEnd c = false) : rulesOf line = parseLines [line] := by
  have onward : ∀ begun, parseLines (linesFrom begun (newlines line)) = parseLines [begun.reverse ++ line] := by
    induction line with
    | nil =>
      intro begun
      rw [List.append_nil]
      exact parseLines_linesFrom_nil begun
    | cons c line ih =>
      intro begun
      have plain : c ≠ '\r' := by
        rintro rfl
        exact absurd (whole '\r' List.mem_cons_self) (by decide)
      rw [newlines_cons plain, linesFrom_cons plain, if_neg (by simp [whole c List.mem_cons_self]),
        ih (fun d member => whole d (List.mem_cons_of_mem c member))]
      simp
  exact onward []

theorem rulesOf_lines {lines : List String} (whole : ∀ line ∈ lines, ∀ c ∈ line.toList, isLineEnd c = false) :
    rulesOf (lines.flatMap fun line => line.toList ++ ['\n']) = parseLines (lines.map String.toList) := by
  induction lines with
  | nil => rfl
  | cons line lines ih =>
    rw [List.flatMap_cons, List.append_assoc, List.singleton_append, rulesOf_append,
      rulesOf_line (whole line List.mem_cons_self), ih fun other member => whole other (List.mem_cons_of_mem _ member),
      List.map_cons, ← parseLines_cons]

/-! ### Lines as bytes -/

/-- The bytes that add lines behind others: a last line without an end gets one first. -/
def addedLines (before : List UInt8) (lines : List String) : List UInt8 :=
  (if before = [] ∨ before.getLast? = some 10 then [] else [10]) ++
    encodeUtf8 (lines.flatMap fun line => line.toList ++ ['\n'])

theorem rulesOf_addedLines (text : List Char) {lines : List String}
    (whole : ∀ line ∈ lines, ∀ c ∈ line.toList, isLineEnd c = false) :
    ∃ added, encodeUtf8 text ++ addedLines (encodeUtf8 text) lines = encodeUtf8 added ∧
      rulesOf added = rulesOf text ++ parseLines (lines.map String.toList) := by
  unfold addedLines
  split
  next closed =>
    refine ⟨_, (encodeUtf8_append _ _).symm, ?_⟩
    rcases closed with none | last
    · obtain rfl := nil_eq_encodeUtf8_iff.mp none.symm
      rw [List.nil_append, rulesOf_lines whole]
      rfl
    · obtain ⟨front, rfl⟩ := ends_with_newline last
      rw [List.append_assoc, List.singleton_append, rulesOf_append, rulesOf_append, rulesOf_lines whole]
      show _ = _ ++ [] ++ _
      rw [List.append_nil]
  next =>
    refine ⟨text ++ '\n' :: lines.flatMap fun line => line.toList ++ ['\n'], ?_, ?_⟩
    · rw [encodeUtf8_append, encodeUtf8_cons]
      rfl
    · rw [rulesOf_append, rulesOf_lines whole]

end Ignore

end SyntaxTally
