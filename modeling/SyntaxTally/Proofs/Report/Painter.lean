import SyntaxTally.Proofs.Ignore.Lines
import SyntaxTally.Report.Terminal

/-!
# What a table asks of a painter

A table only needs to know that lines keep to the cells they are given, and that texts of letters and digits are shown
as they are (`Painter.Faithful`). The painter of this library keeps to that (`faithful_terminalPainter`).
-/
namespace SyntaxTally.Report

/-- The characters of which borders are made. -/
def frame : List Char := ['─', '│', '╭', '┬', '╮', '├', '┼', '┤', '╰', '┴', '╯']

/-- A text of letters and digits. -/
def IsPlain (text : List Char) : Prop := text ≠ [] ∧ ∀ c ∈ text, c.isAlphanum = true

instance (text : List Char) : Decidable (IsPlain text) :=
  decidable_of_iff (text ≠ [] ∧ text.all Char.isAlphanum = true) (by rw [IsPlain, List.all_eq_true])

/-- The lines of the cell keep to the cells of a terminal that they are given. -/
def Cell.Keeps (cell : Cell) (painter : Painter) : Prop :=
  ∀ width, 0 < width → ∀ line ∈ cell.lines width, painter.cells line ≤ width

/-- The cell shows the text as it is, on the right. -/
structure Cell.Shows (cell : Cell) (text : List Char) : Prop where
  longest : cell.longest = text.length
  lines : ∀ width, text.length ≤ width → cell.lines width = [blanks (width - text.length) ++ text]

/-- A painter that shows no more than there is room for, and texts of letters and digits as they are. -/
structure Painter.Faithful (painter : Painter) : Prop where
  nothing : painter.cells [] = 0
  append : ∀ left right, painter.cells (left ++ right) ≤ painter.cells left + painter.cells right
  narrow : ∀ c ∈ ' ' :: frame, painter.cells [c] ≤ 1
  folded : ∀ text cell, painter.folded text = .ok cell → cell.Keeps painter
  heading : ∃ cell, painter.folded heading.1 = .ok cell
  aligned : ∀ text, IsPlain text.toList →
    ∃ cell, painter.aligned text = .ok cell ∧ cell.Keeps painter ∧ cell.Shows text.toList
  cropped : ∀ width line, painter.cells (painter.crop width line) ≤ width
  uncropped : ∀ width line, painter.cells line ≤ width → painter.crop width line = line

/-! ### A terminal of letters -/

variable {text : List Char} {width : Nat}

theorem cells_nil : cells [] = 0 := rfl

theorem cells_cons (c : Char) (text : List Char) : cells (c :: text) = charCells c + cells text := rfl

@[simp] theorem cells_append (text others : List Char) : cells (text ++ others) = cells text + cells others := by
  induction text with
  | nil => simp [cells_nil]
  | cons c text ih => rw [List.cons_append, cells_cons, cells_cons, ih, Nat.add_assoc]

theorem charCells_blank : charCells ' ' = 1 := by decide +kernel

@[simp] theorem cells_blanks (n : Nat) : cells (blanks n) = n := by
  induction n with
  | zero => rfl
  | succ n ih => rw [blanks, List.replicate_succ, cells_cons, charCells_blank, ← blanks, ih, Nat.add_comm]

theorem cut_of_le (fits : cells text ≤ width) : cut width text = text := by
  induction text generalizing width with
  | nil => rfl
  | cons c text ih =>
    rw [cells_cons] at fits
    rw [cut, if_pos (by omega), ih (by omega)]

theorem cells_cut (width : Nat) (text : List Char) : cells (cut width text) = min width (cells text) := by
  induction text generalizing width with
  | nil => simp [cut, cells_nil]
  | cons c text ih =>
    rw [cut, cells_cons]
    split
    · rw [cells_cons, ih]
      omega
    · rw [cells_blanks]
      omega

theorem cells_fill (width : Nat) (text : List Char) : cells (fill width text) = width := by
  rw [fill, cells_append, cells_cut, cells_blanks]
  omega

theorem cells_alignRight (some : 0 < width) (text : List Char) : cells (alignRight width text) = width := by
  have ellipsis : charCells '…' = 1 := by decide +kernel
  unfold alignRight
  split
  · rw [cells_append, cells_cut, cells_cons, cells_nil, ellipsis]
    omega
  · rw [cells_append, cells_blanks]
    omega

/-! ### Letters and digits -/

theorem isAlphanum_toNat {c : Char} (plain : c.isAlphanum = true) : 48 ≤ c.toNat ∧ c.toNat ≤ 122 := by
  change (decide ('A'.val ≤ c.val ∧ c.val ≤ 'Z'.val) || (decide ('a'.val ≤ c.val) && decide (c.val ≤ 'z'.val)) ||
    (decide ('0'.val ≤ c.val) && decide (c.val ≤ '9'.val))) = true at plain
  simp only [Bool.or_eq_true, Bool.and_eq_true, decide_eq_true_eq, UInt32.le_iff_toNat_le] at plain
  have same : c.toNat = c.val.toNat := rfl
  simp at plain
  omega

theorem charCells_of_isAlphanum {c : Char} (plain : c.isAlphanum = true) : charCells c = 1 := by
  have all : (List.range 75).all (fun n => charCells (Char.ofNat (48 + n)) = 1) = true := by decide +kernel
  simp only [List.all_eq_true, List.mem_range, decide_eq_true_eq] at all
  obtain ⟨low, high⟩ := isAlphanum_toNat plain
  have number := all (c.toNat - 48) (by omega)
  rwa [show 48 + (c.toNat - 48) = c.toNat by omega, Char.ofNat_toNat] at number

theorem cells_of_plain (plain : ∀ c ∈ text, c.isAlphanum = true) : cells text = text.length := by
  induction text with
  | nil => rfl
  | cons c text ih =>
    obtain ⟨here, later⟩ := List.forall_mem_cons.mp plain
    rw [cells_cons, charCells_of_isAlphanum here, ih later, List.length_cons, Nat.add_comm]

theorem lines_of_whole (some : text ≠ []) (whole : ∀ c ∈ text, Text.isLineEnd c = false) :
    Text.lines text = [text] := by
  have onward : ∀ begun, begun ++ text ≠ [] → Text.linesFrom begun.reverse text = [begun ++ text] := by
    clear some
    induction text with
    | nil =>
      intro begun some
      rw [List.append_nil] at some
      simp [Text.linesFrom, some]
    | cons c text ih =>
      intro begun _
      obtain ⟨here, later⟩ := List.forall_mem_cons.mp whole
      have noReturn : c ≠ '\r' := by
        rintro rfl
        cases here
      rw [Ignore.linesFrom_cons noReturn, if_neg (by simp [here])]
      have next := ih later (begun ++ [c]) (by simp)
      simpa using next
  exact onward [] some

theorem longestLine_of_plain (plain : IsPlain text) : longestLine text = text.length := by
  have whole : ∀ c ∈ text, Text.isLineEnd c = false := by
    intro c listed
    obtain ⟨low, high⟩ := isAlphanum_toNat (plain.2 c listed)
    simp only [Text.isLineEnd, Bool.or_eq_false_iff, Bool.and_eq_false_iff, decide_eq_false_iff_not]
    omega
  rw [longestLine, lines_of_whole plain.1 whole, List.map_singleton, cells_of_plain plain.2]
  simp

/-! ### The painter -/

theorem keeps_nameCell {name : String} {cell : Cell} (made : nameCell name = .ok cell) :
    cell.Keeps terminalPainter := by
  unfold nameCell at made
  cases shown : Markup.render name.toList with
  | error fault =>
    rw [shown] at made
    cases made
  | ok text =>
    rw [shown] at made
    cases made
    intro width _ line listed
    obtain ⟨part, -, made⟩ := List.mem_flatMap.mp listed
    obtain ⟨broken, -, rfl⟩ := List.mem_map.mp made
    exact Nat.le_of_eq (cells_fill width _)

theorem keeps_countCell (text : String) : (countCell text).Keeps terminalPainter := by
  intro width some line listed
  obtain rfl := List.mem_singleton.mp listed
  exact Nat.le_of_eq (cells_alignRight some text.toList)

theorem shows_countCell {text : String} (plain : IsPlain text.toList) : (countCell text).Shows text.toList where
  longest := longestLine_of_plain plain
  lines := by
    intro width enough
    have size := cells_of_plain plain.2
    show [alignRight width text.toList] = _
    rw [alignRight, size, if_neg (by omega)]

theorem faithful_terminalPainter : terminalPainter.Faithful where
  nothing := rfl
  append left right := Nat.le_of_eq (cells_append left right)
  narrow := by
    have all : (' ' :: frame).all (fun c => terminalPainter.cells [c] ≤ 1) = true := by decide +kernel
    simpa using all
  folded _ _ := keeps_nameCell
  heading := ⟨_, rfl⟩
  aligned text plain := ⟨countCell text, rfl, keeps_countCell text, shows_countCell plain⟩
  cropped width line := by
    show cells (cut width line) ≤ width
    rw [cells_cut]
    exact Nat.min_le_left _ _
  uncropped _ _ := cut_of_le

end SyntaxTally.Report
