import Mathlib.Data.List.Forall2
import Mathlib.Order.MinMax
import SyntaxTally.Proofs.Report.Painter
import SyntaxTally.Proofs.Report.Rows

/-!
# The width of the table

Both columns together have exactly the room between the borders, and with a painter that keeps to the cells it is given
every line of the table is as wide as they are at most. The names lose all their cells before the counts lose one, so
counts for which the table has room are printed in full.
-/
namespace SyntaxTally.Report

open Number

variable {width terminal room : Nat}

/-! ### Columns -/

/-- The width of a column that gives all its texts on one line each. -/
def naturalWidth (column : List Cell) : Nat := (column.map Cell.longest).foldl max 0 + 2

theorem wantedWidth_eq (limit : Nat) (column : List Cell) :
    wantedWidth limit column = if limit < 3 then max 1 limit else min limit (naturalWidth column) := by
  unfold wantedWidth naturalWidth
  split <;> omega

/-- What a part of the whole gets of the rest, rounded up, is no more than the rest. -/
theorem share_le {part whole : Nat} (less : part < whole) (rest : Nat) : (part * rest + whole - 1) / whole ≤ rest := by
  have least : (part + 1) * rest ≤ whole * rest := Nat.mul_le_mul_right rest less
  rw [Nat.add_one_mul] at least
  apply Nat.le_of_lt_succ
  rw [Nat.div_lt_iff_lt_mul (by omega), Nat.succ_mul, Nat.mul_comm rest whole]
  omega

theorem columnWidths_sum (room : Nat) (names counts : List Cell) :
    (columnWidths room names counts).1 + (columnWidths room names counts).2 = room := by
  have least : 1 ≤ wantedWidth room counts := Nat.le_max_left _ _
  unfold columnWidths
  dsimp only
  split
  · rename_i narrow
    have most : wantedWidth room counts ≤ max 1 room := by
      rw [wantedWidth_eq]
      split <;> omega
    dsimp only
    omega
  · rename_i wide
    have less : wantedWidth room names < wantedWidth room names + wantedWidth room counts := by omega
    have shared := share_le less (room - (wantedWidth room names + wantedWidth room counts))
    dsimp only
    omega

/-- The counts lose a cell only when the names have none left. -/
theorem names_give_way (room : Nat) (names counts : List Cell)
    (lost : (columnWidths room names counts).2 < naturalWidth counts) : (columnWidths room names counts).1 = 0 := by
  have sum := columnWidths_sum room names counts
  have some : 1 ≤ wantedWidth room names := Nat.le_max_left _ _
  have wanted := wantedWidth_eq room counts
  unfold columnWidths at lost sum ⊢
  dsimp only at lost sum ⊢
  split at lost
  · rename_i narrow
    rw [if_pos narrow] at sum ⊢
    dsimp only at lost sum ⊢
    split at wanted <;> omega
  · rename_i wide
    dsimp only at lost
    have natural : 2 ≤ naturalWidth counts := Nat.le_add_left _ _
    split at wanted
    · have also := wantedWidth_eq room names
      rw [if_pos ‹_›] at also
      omega
    · omega

theorem naturalWidth_le_of_le {names counts : List Cell} (enough : naturalWidth counts ≤ room) :
    naturalWidth counts ≤ (columnWidths room names counts).2 := by
  have sum := columnWidths_sum room names counts
  by_contra lost
  have none := names_give_way room names counts (by omega)
  omega

/-! ### Lines of cells -/

/-- A line of the table, with its two cells between the borders. -/
def joined (left right : Line) : Line := '│' :: left ++ '│' :: right ++ ['│']

/-- The lines of a cell, filled up to the height of its row. -/
def levelled (heading : Bool) (height width : Nat) (lines : List Line) : List Line :=
  let missing := List.replicate (height - lines.length) (blanks width)
  if heading then missing ++ lines else lines ++ missing

theorem drawRow_eq (heading : Bool) (widths : Nat × Nat) (row : Cell × Cell) :
    drawRow heading widths row =
      let height := max 1 (max (row.1.padded widths.1).length (row.2.padded widths.2).length)
      ((levelled heading height widths.1 (row.1.padded widths.1)).zip
        (levelled heading height widths.2 (row.2.padded widths.2))).map fun pair => joined pair.1 pair.2 :=
  rfl

/-- The line between two rows. -/
def between (widths : Nat × Nat) : Line := border '├' '┼' '┤' widths

theorem drawRows_eq (widths : Nat × Nat) (shown : List (Cell × Cell)) :
    drawRows widths shown = [between widths].intercalate (shown.map (drawRow false widths)) := by
  induction shown with
  | nil => rfl
  | cons row rest ih =>
    cases rest with
    | nil => simp [drawRows, List.intercalate]
    | cons next rest =>
      rw [drawRows, ih]
      · rfl
      · simp

/-- The columns of a table of that width. -/
def widthsOf (width : Nat) (top : Cell × Cell) (shown : List (Cell × Cell)) : Nat × Nat :=
  columnWidths (width - 3) ((top :: shown).map (·.1)) ((top :: shown).map (·.2))

/-- The lines above the rows. -/
def headingOf (widths : Nat × Nat) (top : Cell × Cell) : List Line :=
  border '╭' '┬' '╮' widths :: drawRow true widths top ++ [between widths]

theorem draw_eq (width : Nat) (top : Cell × Cell) (shown : List (Cell × Cell)) :
    draw width top shown = headingOf (widthsOf width top shown) top ++
      [between (widthsOf width top shown)].intercalate (shown.map (drawRow false (widthsOf width top shown))) ++
      [border '╰' '┴' '╯' (widthsOf width top shown)] := by
  rw [← drawRows_eq]
  simp [draw, headingOf, widthsOf, between]

section

variable {painter : Painter} (faithful : painter.Faithful)

include faithful

theorem cells_cons_le {c : Char} (narrow : c ∈ ' ' :: frame) (line : Line) :
    painter.cells (c :: line) ≤ 1 + painter.cells line := by
  have joined := faithful.append [c] line
  have one := faithful.narrow c narrow
  exact le_trans joined (Nat.add_le_add_right one _)

theorem cells_replicate_le {c : Char} (narrow : c ∈ ' ' :: frame) (n : Nat) :
    painter.cells (List.replicate n c) ≤ n := by
  induction n with
  | zero => exact Nat.le_of_eq faithful.nothing
  | succ n ih =>
    have more := cells_cons_le faithful narrow (List.replicate n c)
    rw [List.replicate_succ]
    omega

theorem cells_padded_le {cell : Cell} (keeps : cell.Keeps painter) (width : Nat) :
    ∀ line ∈ cell.padded width, painter.cells line ≤ width := by
  intro line listed
  unfold Cell.padded at listed
  split at listed
  · cases listed
  · obtain ⟨inner, there, rfl⟩ := List.mem_map.mp listed
    have size := keeps (width - 2) (by omega) inner there
    have front := cells_cons_le faithful (List.mem_cons_self) (inner ++ [' '])
    have behind := faithful.append inner [' ']
    have blank := faithful.narrow ' ' List.mem_cons_self
    rw [List.cons_append]
    omega

theorem cells_joined_le (left right : Line) :
    painter.cells (joined left right) ≤ painter.cells left + painter.cells right + 3 := by
  have bar : '│' ∈ ' ' :: frame := by decide
  have first := cells_cons_le faithful bar (left ++ '│' :: right ++ ['│'])
  have second := faithful.append left ('│' :: (right ++ ['│']))
  have third := cells_cons_le faithful bar (right ++ ['│'])
  have last := faithful.append right ['│']
  have one := faithful.narrow '│' bar
  simp only [joined, List.cons_append, List.append_assoc] at first ⊢
  omega

theorem cells_border_le {left middle right : Char} (framed : ∀ c ∈ [left, middle, right], c ∈ ' ' :: frame)
    (widths : Nat × Nat) : painter.cells (border left middle right widths) ≤ widths.1 + widths.2 + 3 := by
  have dash : '─' ∈ ' ' :: frame := by decide
  simp only [List.forall_mem_cons] at framed
  have first := cells_cons_le faithful framed.1
    (List.replicate widths.1 '─' ++ middle :: (List.replicate widths.2 '─' ++ [right]))
  have second := faithful.append (List.replicate widths.1 '─') (middle :: (List.replicate widths.2 '─' ++ [right]))
  have third := cells_cons_le faithful framed.2.1 (List.replicate widths.2 '─' ++ [right])
  have last := faithful.append (List.replicate widths.2 '─') [right]
  have one := faithful.narrow right framed.2.2.1
  have left := cells_replicate_le faithful dash widths.1
  have right := cells_replicate_le faithful dash widths.2
  simp only [border, List.cons_append, List.append_assoc] at first ⊢
  omega

theorem cells_levelled_le {lines : List Line} (keep : ∀ line ∈ lines, painter.cells line ≤ width) (heading : Bool)
    (height : Nat) : ∀ line ∈ levelled heading height width lines, painter.cells line ≤ width := by
  intro line listed
  have either : line ∈ lines ∨ line ∈ List.replicate (height - lines.length) (blanks width) := by
    unfold levelled at listed
    cases heading <;> simpa [or_comm] using listed
  rcases either with own | missing
  · exact keep line own
  · rw [List.eq_of_mem_replicate missing]
    exact cells_replicate_le faithful List.mem_cons_self width

/-- Both cells of the row keep to the cells of a terminal that they are given. -/
def Keep (painter : Painter) (row : Cell × Cell) : Prop := row.1.Keeps painter ∧ row.2.Keeps painter

theorem cells_drawRow_le {row : Cell × Cell} (keep : Keep painter row) (heading : Bool) (widths : Nat × Nat) :
    ∀ line ∈ drawRow heading widths row, painter.cells line ≤ widths.1 + widths.2 + 3 := by
  intro line listed
  rw [drawRow_eq] at listed
  obtain ⟨⟨left, right⟩, paired, rfl⟩ := List.mem_map.mp listed
  obtain ⟨onLeft, onRight⟩ := List.of_mem_zip paired
  have whole := cells_joined_le faithful left right
  have first := cells_levelled_le faithful (cells_padded_le faithful keep.1 widths.1) _ _ left onLeft
  have second := cells_levelled_le faithful (cells_padded_le faithful keep.2 widths.2) _ _ right onRight
  dsimp only at *
  omega

theorem cells_between_le (widths : Nat × Nat) : painter.cells (between widths) ≤ widths.1 + widths.2 + 3 :=
  cells_border_le faithful (by simp [frame]) widths

theorem cells_drawRows_le {shown : List (Cell × Cell)} (keep : ∀ row ∈ shown, Keep painter row) (widths : Nat × Nat) :
    ∀ line ∈ drawRows widths shown, painter.cells line ≤ widths.1 + widths.2 + 3 := by
  fun_induction drawRows widths shown with
  | case1 => simp
  | case2 row => exact cells_drawRow_le faithful (keep row List.mem_cons_self) false widths
  | case3 row rest more ih =>
    obtain ⟨here, others⟩ := List.forall_mem_cons.mp keep
    intro line listed
    rcases List.mem_append.mp listed with own | later
    · exact cells_drawRow_le faithful here false widths line own
    · rcases List.mem_cons.mp later with rfl | later
      · exact cells_between_le faithful widths
      · exact ih others line later

/-- No line is wider than the table, or than three cells of border if that is less. -/
theorem cells_draw_le {top : Cell × Cell} {shown : List (Cell × Cell)} (keepTop : Keep painter top)
    (keep : ∀ row ∈ shown, Keep painter row) (width : Nat) :
    ∀ line ∈ draw width top shown, painter.cells line ≤ max 3 width := by
  have sum : (widthsOf width top shown).1 + (widthsOf width top shown).2 + 3 = max 3 width := by
    rw [widthsOf, columnWidths_sum]
    omega
  intro line listed
  rw [draw_eq, ← drawRows_eq, headingOf, List.mem_append, List.mem_append, List.cons_append, List.mem_cons,
    List.mem_append, List.mem_singleton, List.mem_singleton] at listed
  rw [← sum]
  rcases listed with ((rfl | heading | rfl) | row) | rfl
  · exact cells_border_le faithful (by simp [frame]) _
  · exact cells_drawRow_le faithful keepTop true _ line heading
  · exact cells_between_le faithful _
  · exact cells_drawRows_le faithful keep _ line row
  · exact cells_border_le faithful (by simp [frame]) _

end

/-! ### Counts in full -/

/-- The lines of a row give the count in full: it stands unbroken at the end of the first line, and there is nothing
beside the name in the others. -/
def ShowsCount (count : Line) (block : List Line) : Prop :=
  ∃ (left : Line) (k : Nat) (others : List Line),
    block = joined left (blanks k ++ count ++ [' ']) :: others ∧
    ∀ line ∈ others, ∃ left k, line = joined left (blanks k)

theorem padded_of_shows {cell : Cell} {count : Line} (shows : cell.Shows count) (fits : count.length + 2 ≤ width)
    (some : 0 < count.length) : cell.padded width = [blanks (width - 1 - count.length) ++ count ++ [' ']] := by
  have begun : width - 1 - count.length = width - 2 - count.length + 1 := by omega
  unfold Cell.padded
  rw [if_neg (by omega), shows.lines (width - 2) (by omega), begun, blanks, blanks, List.replicate_succ]
  rfl

theorem showsCount_drawRow {widths : Nat × Nat} {row : Cell × Cell} {count : Line} (shows : row.2.Shows count)
    (fits : count.length + 2 ≤ widths.2) (some : 0 < count.length) : ShowsCount count (drawRow false widths row) := by
  rw [drawRow_eq, padded_of_shows shows fits some]
  dsimp only [List.length_singleton]
  generalize tall : max 1 (max (row.1.padded widths.1).length 1) = height
  -- the cell of the name has as many lines as the row, so there is one beside the count
  obtain ⟨left, lefts, beside⟩ : ∃ left lefts,
      levelled false height widths.1 (row.1.padded widths.1) = left :: lefts := by
    apply List.exists_cons_of_length_pos
    simp only [levelled, Bool.false_eq_true, if_false, List.length_append, List.length_replicate]
    omega
  refine ⟨left, widths.2 - 1 - count.length,
    (lefts.zip (List.replicate (height - 1) (blanks widths.2))).map fun pair => joined pair.1 pair.2, ?_, ?_⟩
  · rw [beside]
    rfl
  · intro line listed
    obtain ⟨⟨other, blank⟩, paired, rfl⟩ := List.mem_map.mp listed
    exact ⟨other, widths.2, by rw [List.eq_of_mem_replicate (List.of_mem_zip paired).2]⟩

/-! ### Numerals -/

/-- The greatest count that is shown; zero if there is none. -/
def largestShown (counts : Counts) : Int :=
  ((counts.entries.filter fun entry => !isReserved entry.1).map (·.2)).foldl max 0

theorem foldl_max_le_iff {α : Type} [LinearOrder α] {values : List α} {least bound : α} :
    values.foldl max least ≤ bound ↔ least ≤ bound ∧ ∀ value ∈ values, value ≤ bound := by
  induction values generalizing least with
  | nil => simp
  | cons value rest ih => rw [List.foldl_cons, ih, max_le_iff, List.forall_mem_cons, and_assoc]

theorem longest_le_naturalWidth {column : List Cell} {cell : Cell} (among : cell ∈ column) :
    cell.longest + 2 ≤ naturalWidth column := by
  have longest : cell.longest ≤ (column.map Cell.longest).foldl max 0 :=
    (foldl_max_le_iff.mp (Nat.le_refl _)).2 _ (List.mem_map_of_mem among)
  rw [naturalWidth]
  omega

theorem isPlain_numeral {n : Int} (nonnegative : 0 ≤ n) : IsPlain (toString n).toList := by
  obtain ⟨m, rfl⟩ := Int.eq_ofNat_of_zero_le nonnegative
  have written : (toString (m : Int)).toList = Nat.toDigits 10 m := Nat.toList_repr
  rw [written]
  refine ⟨Nat.toDigits_ne_nil, fun c listed => ?_⟩
  have digit := Nat.isDigit_of_mem_toDigits (by decide) (by decide) listed
  simp [Char.isAlphanum, digit]

theorem length_numeral_le {n largest : Int} (nonnegative : 0 ≤ n) (most : n ≤ largest) :
    (toString n).length ≤ (toString largest).length := by
  obtain ⟨m, rfl⟩ := Int.eq_ofNat_of_zero_le nonnegative
  obtain ⟨k, rfl⟩ := Int.eq_ofNat_of_zero_le (le_trans nonnegative most)
  show m.repr.length ≤ k.repr.length
  have below : m < 10 ^ k.repr.length := by
    have whole := (Nat.length_repr_le_iff Nat.length_repr_pos).mp (le_refl k.repr.length)
    omega
  exact (Nat.length_repr_le_iff Nat.length_repr_pos).mpr below

/-- The counts that are shown are numerals no longer than that of the largest. -/
theorem length_shown_le {counts : Counts} {entry : String × Int} (listed : entry ∈ shownEntries counts)
    (nonnegative : 0 ≤ entry.2) : (toString entry.2).length ≤ (toString (largestShown counts)).length := by
  apply length_numeral_le nonnegative
  exact (foldl_max_le_iff.mp (le_refl (largestShown counts))).2 entry.2
    (List.mem_map_of_mem (mem_filter_of_shown listed))

/-! ### The printed table -/

/-- The cells of a row keep to the room they are given, and where there is room for a text the second is its count. -/
structure Painted (painter : Painter) (room : Nat) (row : String × String) (cells : Cell × Cell) : Prop where
  keep : Keep painter cells
  shows : 3 ≤ room → cells.2.Shows row.2.toList

section

variable {painter : Painter} (faithful : painter.Faithful)

include faithful

theorem exists_painted (room : Nat) {row : String × String} (marked : ∃ cell, painter.folded row.1 = .ok cell)
    (plain : IsPlain row.2.toList) :
    ∃ cells, paintRow painter room row = .ok cells ∧ Painted painter room row cells := by
  unfold paintRow
  split
  · have empty : ∀ width, 0 < width → ∀ line ∈ Cell.hidden.lines width, painter.cells line ≤ width :=
      fun _ _ _ listed => absurd listed List.not_mem_nil
    exact ⟨_, rfl, ⟨empty, empty⟩, fun _ => by omega⟩
  · obtain ⟨name, folded⟩ := marked
    obtain ⟨count, aligned, keeps, shows⟩ := faithful.aligned row.2 plain
    rw [folded, aligned]
    exact ⟨_, rfl, ⟨faithful.folded row.1 name folded, keeps⟩, fun _ => shows⟩

theorem exists_painted_rows (room : Nat) {entries : List (String × Int)}
    (marked : ∀ entry ∈ entries, ∃ cell, painter.folded entry.1 = .ok cell)
    (nonnegative : ∀ entry ∈ entries, 0 ≤ entry.2) :
    ∃ shown, (written entries).mapM (paintRow painter room) = .ok shown ∧
      List.Forall₂ (fun entry cells => Painted painter room (entry.1, toString entry.2) cells) entries shown := by
  induction entries with
  | nil => exact ⟨[], rfl, .nil⟩
  | cons entry rest ih =>
    obtain ⟨first, marked⟩ := List.forall_mem_cons.mp marked
    obtain ⟨here, nonnegative⟩ := List.forall_mem_cons.mp nonnegative
    obtain ⟨shown, mapped, painted⟩ := ih marked nonnegative
    obtain ⟨cells, own, ownPainted⟩ :
        ∃ cells, paintRow painter room (entry.1, toString entry.2) = .ok cells ∧
          Painted painter room (entry.1, toString entry.2) cells :=
      exists_painted faithful room first (isPlain_numeral here)
    refine ⟨cells :: shown, ?_, .cons ownPainted painted⟩
    rw [written, List.map_cons, List.mapM_cons, own, ← written, mapped]
    rfl

end

theorem exists_of_mem_right {α β : Type} {related : α → β → Prop} {left : List α} {right : List β} {b : β}
    (each : List.Forall₂ related left right) (among : b ∈ right) : ∃ a ∈ left, related a b := by
  induction each with
  | nil => cases among
  | @cons first second left right here later ih =>
    rcases List.mem_cons.mp among with rfl | among
    · exact ⟨first, List.mem_cons_self, here⟩
    · obtain ⟨a, listed, also⟩ := ih among
      exact ⟨a, List.mem_cons_of_mem _ listed, also⟩

section

variable {painter : Painter} {top : Cell × Cell} {shown : List (Cell × Cell)} {counts : Counts}
  (nonnegative : ∀ entry ∈ shownEntries counts, 0 ≤ entry.2)
  (painted : List.Forall₂ (fun entry cells => Painted painter room (entry.1, toString entry.2) cells)
    (shownEntries counts) shown)

include nonnegative painted

/-- The column of counts needs no more than its heading or the largest count does. -/
theorem naturalWidth_counts_le (enough : 3 ≤ room) (heading : Painted painter room heading top) :
    naturalWidth ((top :: shown).map (·.2)) ≤ 2 + max 5 (toString (largestShown counts)).length := by
  rw [naturalWidth, Nat.add_comm]
  apply Nat.add_le_add_left
  rw [foldl_max_le_iff]
  refine ⟨Nat.zero_le _, ?_⟩
  intro size listed
  rw [List.map_cons, List.map_cons, List.mem_cons, List.map_map, List.mem_map] at listed
  rcases listed with own | ⟨cells, among, rfl⟩
  · rw [own, (heading.shows enough).longest]
    exact Nat.le_max_left _ _
  · obtain ⟨entry, listed, cellsOf⟩ := exists_of_mem_right painted among
    rw [Function.comp_apply, (cellsOf.shows enough).longest, String.length_toList]
    exact le_trans (length_shown_le listed (nonnegative entry listed)) (Nat.le_max_right _ _)

/-- Each row shows its count if the column of counts has the room that it wants. -/
theorem showsCount_rows {widths : Nat × Nat} (enough : 3 ≤ room)
    (wide : naturalWidth ((top :: shown).map (·.2)) ≤ widths.2) :
    List.Forall₂ (fun entry block => ShowsCount (toString entry.2).toList block) (shownEntries counts)
      (shown.map (drawRow false widths)) := by
  rw [List.forall₂_map_right_iff]
  have all : ∀ cells ∈ shown, cells.2.longest + 2 ≤ widths.2 := by
    intro cells among
    have one := longest_le_naturalWidth (List.mem_map_of_mem (f := (·.2)) (List.mem_cons_of_mem top among))
    exact le_trans one wide
  clear wide
  generalize shownEntries counts = entries at nonnegative painted
  induction painted with
  | nil => exact .nil
  | cons here later ih =>
    obtain ⟨first, others⟩ := List.forall_mem_cons.mp nonnegative
    obtain ⟨fits, rest⟩ := List.forall_mem_cons.mp all
    have shows := here.shows enough
    rw [shows.longest] at fits
    refine .cons (showsCount_drawRow shows fits ?_) (ih rest others)
    exact List.length_pos_iff.mpr (isPlain_numeral first).1

end

/-- A name that is longer than the table is wide, with a style, and one that is not shown. -/
def crowded : Counts :=
  .ofEntries [("[bold]function[/bold].method.call.of.a.long.name", 123456), ("_callee", 1234567), ("string", 0)]

end SyntaxTally.Report
