import SyntaxTally.Counts
import SyntaxTally.Number.Numeral

/-!
# The table of counts

Names and counts in two columns with a border. The names give way first when the table is too wide: they
are wrapped, while counts are cut only when the names have no room left. How a terminal shows the texts is left
to a painter.
-/
namespace SyntaxTally.Report

/-! ### Rows -/

/-- Names that begin so are for the query's own use. -/
def isReserved (name : String) : Bool := name.startsWith "_"

/-- The names with their counts in increasing order, without the reserved ones. -/
def shownEntries (counts : Counts) : List (String × Int) :=
  (counts.entries.filter fun (name, _) => !isReserved name).mergeSort fun a b => a.1 ≤ b.1

/-- A name with the numeral of its count. A count without a numeral is a crash. -/
def rowOf (entry : String × Int) : Except Crash (String × String) := (Number.numeral entry.2).map (entry.1, ·)

def rows (counts : Counts) : Except Crash (List (String × String)) := (shownEntries counts).mapM rowOf

/-! ### Painters -/

abbrev Line := List Char

/-- A text that is ready to be shown. -/
structure Cell where
  /-- The terminal cells of its longest line. -/
  longest : Nat
  /-- Its lines in so many terminal cells. -/
  lines : Nat → List Line

namespace Cell

/-- A text that there is no room for. -/
def hidden : Cell := ⟨0, fun _ => []⟩

/-- The lines with a blank on both sides; there are none if nothing fits between these. -/
def padded (cell : Cell) (width : Nat) : List Line :=
  if width < 3 then [] else (cell.lines (width - 2)).map fun line => ' ' :: line ++ [' ']

end Cell

/-- How a terminal shows texts. -/
structure Painter where
  /-- The terminal cells of a line. -/
  cells : Line → Nat
  /-- A text that begins on the left and is folded. It may hold marks that are not shown, or that are wrong. -/
  folded : String → Except Crash Cell
  /-- A text that ends on the right and is cut. -/
  aligned : String → Except Crash Cell
  /-- A line up to where the terminal ends. -/
  crop : Nat → Line → Line

/-! ### Widths -/

/-- The width a column wants: its longest line and a blank on both sides, within the limit. -/
def wantedWidth (limit : Nat) (column : List Cell) : Nat :=
  max 1 (min limit (if limit < 3 then limit else (column.map Cell.longest).foldl max 0 + 2))

/-- The widths of both columns together with no more than the room there is: too wide, the names shrink
before the counts; too narrow, the rest is shared in proportion. -/
def columnWidths (room : Nat) (names counts : List Cell) : Nat × Nat :=
  let wantedNames := wantedWidth room names
  let wantedCounts := wantedWidth room counts
  let wanted := wantedNames + wantedCounts
  if room < wanted then
    let forCounts := min wantedCounts room
    (min wantedNames (room - forCounts), forCounts)
  else
    let rest := room - wanted
    let forNames := (wantedNames * rest + wanted - 1) / wanted
    (wantedNames + forNames, wantedCounts + (rest - forNames))

/-! ### Drawing -/

def blanks (n : Nat) : Line := List.replicate n ' '

def border (left middle right : Char) (widths : Nat × Nat) : Line :=
  left :: List.replicate widths.1 '─' ++ middle :: List.replicate widths.2 '─' ++ [right]

/-- One row of cells. The shorter cell is filled up with blank lines, in the heading above it. -/
def drawRow (heading : Bool) (widths : Nat × Nat) (row : Cell × Cell) : List Line :=
  let names := row.1.padded widths.1
  let counts := row.2.padded widths.2
  let height := max 1 (max names.length counts.length)
  let level (width : Nat) (lines : List Line) : List Line :=
    let missing := List.replicate (height - lines.length) (blanks width)
    if heading then missing ++ lines else lines ++ missing
  ((level widths.1 names).zip (level widths.2 counts)).map fun (left, right) =>
    '│' :: left ++ '│' :: right ++ ['│']

/-- The rows with a line between each two of them. -/
def drawRows (widths : Nat × Nat) : List (Cell × Cell) → List Line
  | [] => []
  | [row] => drawRow false widths row
  | row :: rest => drawRow false widths row ++ border '├' '┼' '┤' widths :: drawRows widths rest

/-- The lines of a table with a heading. -/
def draw (width : Nat) (heading : Cell × Cell) (shown : List (Cell × Cell)) : List Line :=
  let widths := columnWidths (width - 3) ((heading :: shown).map (·.1)) ((heading :: shown).map (·.2))
  border '╭' '┬' '╮' widths :: drawRow true widths heading ++
    border '├' '┼' '┤' widths :: drawRows widths shown ++ [border '╰' '┴' '╯' widths]

def heading : String × String := ("Query", "Count")

/-- A row is only read where a column can have room for a text. -/
def paintRow (painter : Painter) (room : Nat) (row : String × String) : Except Crash (Cell × Cell) :=
  if room < 3 then .ok (.hidden, .hidden)
  else do .ok (← painter.folded row.1, ← painter.aligned row.2)

/-- The table of the counts on a terminal: no wider than asked for, and cut where the terminal ends. -/
def table (painter : Painter) (counts : Counts) (width terminal : Nat) : Except Crash (List Line) := do
  let room := min width terminal - 3
  let rows ← rows counts
  let top ← paintRow painter room heading
  let shown ← rows.mapM (paintRow painter room)
  .ok ((draw (min width terminal) top shown).map (painter.crop terminal))

end SyntaxTally.Report
