import SyntaxTally.Report.Cells
import SyntaxTally.Report.Markup
import SyntaxTally.Report.Table
import SyntaxTally.Text.Blank

/-!
# A terminal of letters

Texts are shown by the cells of their characters. Names are markup and are wrapped between words.
-/
namespace SyntaxTally.Report

/-- The cells of the longest line of a text. -/
def longestLine (text : List Char) : Nat := ((Text.lines text).map cells).foldl max 0

/-! ### Wrapping -/

/-- Tabs filled up to the next multiple of eight cells. -/
def expandTabs (column : Nat) : List Char → List Char
  | [] => []
  | '\t' :: rest => blanks (8 - column % 8) ++ expandTabs (column + (8 - column % 8)) rest
  | c :: rest => c :: expandTabs (column + charCells c) rest

/-- The words of a line, each with the blanks behind it, the first also with those before it. -/
def wordsFrom (word : List Char) (inWord : Bool) : List Char → List (List Char)
  | [] => if inWord then [word.reverse] else []
  | c :: rest =>
    if Text.isSpace c then wordsFrom (c :: word) inWord rest
    else if inWord && (word.head?.map Text.isSpace).getD false then
      word.reverse :: wordsFrom [c] true rest
    else wordsFrom (c :: word) true rest

/-- Pieces of a word that are no wider than the width. -/
def chop (width : Nat) (piece : List Char) (used : Nat) : List Char → List (List Char)
  | [] => [piece.reverse]
  | c :: rest =>
    if width < used + charCells c then piece.reverse :: chop width [c] (charCells c) rest
    else chop width (c :: piece) (used + charCells c) rest

def trimEnd (text : List Char) : List Char := (text.reverse.dropWhile Text.isSpace).reverse

/-- The lines into which words are broken; the line that is begun has `used` cells. -/
def breakWords (width : Nat) (line : List Char) (used : Nat) : List (List Char) → List (List Char)
  | [] => [line]
  | word :: rest =>
    let size := cells (trimEnd word)
    if used + size ≤ width then breakWords width (line ++ word) (used + cells word) rest
    else if width < size then
      let pieces := chop width [] 0 word
      let whole := if line.isEmpty then pieces else line :: pieces
      let last := whole.getLast?.getD []
      whole.dropLast ++ breakWords width last (cells last) rest
    else line :: breakWords width word (cells word) rest

/-- Takes blanks off the end of a line, as many as it is too long. -/
def dropExcess (width : Nat) (line : List Char) : List Char :=
  let spaces := (line.reverse.takeWhile Text.isSpace).length
  line.take (line.length - min spaces (line.length - width))

/-- The parts of a text between line feeds. -/
def splitLines : List Char → List (List Char)
  | [] => [[]]
  | '\n' :: rest => [] :: splitLines rest
  | c :: rest =>
    match splitLines rest with
    | [] => [[c]]
    | line :: more => (c :: line) :: more

/-- A text broken into lines of exactly the width. A line without a word is not broken. -/
def wrap (width : Nat) (text : List Char) : List (List Char) :=
  (splitLines text).flatMap fun line =>
    let line := expandTabs 0 line
    let words := wordsFrom [] false line
    let broken := if words.isEmpty then [line] else breakWords width [] 0 words
    broken.map fun part => fill width (dropExcess width part)

/-- A text on the right of its cell, cut with an ellipsis if it is too long. -/
def alignRight (width : Nat) (text : List Char) : List Char :=
  if width < cells text then cut (width - 1) text ++ ['…'] else blanks (width - cells text) ++ text

/-! ### The painter -/

/-- A name as it is shown, wrapped. -/
def nameCell (text : String) : Except Crash Cell :=
  match Markup.render text.toList with
  | .error fault => .error (.told "MarkupError" fault.message)
  | .ok shown => .ok ⟨longestLine shown, fun width => wrap width shown⟩

/-- A count, on one line. -/
def countCell (text : String) : Cell := ⟨longestLine text.toList, fun width => [alignRight width text.toList]⟩

def terminalPainter : Painter where
  cells := cells
  folded := nameCell
  aligned text := .ok (countCell text)
  crop := cut

end SyntaxTally.Report
