import SyntaxTally.Syntax.Lexeme

/-!
# Lexemes of Python

Python source text as lexemes. Line ends and changes of indentation are lexemes outside brackets; a
string is cut into its quotes, its plain text, its escapes and, in a format string, the lexemes of the
expressions it holds.
-/
namespace SyntaxTally.Syntax.Python

def reserved : List String :=
  ["False", "None", "True", "and", "as", "assert", "break", "class", "continue", "def", "del", "elif", "else",
    "except", "finally", "for", "from", "global", "if", "import", "in", "is", "lambda", "nonlocal", "not",
    "or", "pass", "raise", "return", "try", "while", "with", "yield"]

def operators : List (List Char) :=
  ["->", ":=", "**=", "//=", ">>=", "<<=", "+=", "-=", "*=", "/=", "@=", "%=", "&=", "^=", "|=", "**", "//", "<<",
    ">>", "<=", ">=", "==", "!=", "<>", "..."].map String.toList

/-- How a string was opened. -/
structure Quote where
  mark : Char
  triple : Bool
  raw : Bool
  bytes : Bool
  format : Bool

/-- What an open bracket or quote encloses. -/
inductive Frame where
  | bracket
  | text (quote : Quote)
  /-- The expression inside the braces of a format string. -/
  | hole
  /-- The layout behind the colon of such an expression. -/
  | layout

/-- A scan in progress: the lexemes and comments so far, latest first. -/
structure Scan where
  rest : List Char
  pos : Nat
  /-- At the start of a line, the column reached; `none` inside a line. -/
  column : Option Nat
  /-- The comments since the last line of code, with their columns and ends, latest first. -/
  remarks : List (Nat × Nat)
  indents : List Nat
  frames : List Frame
  items : List Lexeme
  extras : List Tree

namespace Scan

def emit (s : Scan) (shape : Lexeme.Shape) (text : List Char) : Scan :=
  { s with
    items := ⟨shape, String.ofList text, s.pos, s.pos + text.length⟩ :: s.items
    rest := s.rest.drop text.length
    pos := s.pos + text.length }

def skip (s : Scan) (n : Nat) : Scan := { s with rest := s.rest.drop n, pos := s.pos + n }

def push (s : Scan) (f : Frame) : Scan := { s with frames := f :: s.frames }

def pop (s : Scan) : Scan := { s with frames := s.frames.drop 1 }

def extra (s : Scan) (kind : String) (length : Nat) : Scan :=
  { s.skip length with extras := .leaf kind true s.pos (s.pos + length) :: s.extras }

def comment (s : Scan) : Scan :=
  s.extra "comment" (s.rest.takeWhile (fun c => c ≠ '\n' && c ≠ '\r')).length

/-! ### Lines and indentation -/

/-- A line of code in a deeper column opens a block only behind a colon. -/
def opensBlock (s : Scan) : Bool :=
  match s.items with
  | _ :: x :: _ => x.shape = .mark && x.text = ":"
  | _ => false

/-- Closes the blocks that are indented deeper than the column. A block keeps the comments behind its
last statement that stand in its own column or deeper. -/
def dedent (column : Nat) (pos : Nat) (remarks : List (Nat × Nat)) : List Nat → List Nat × List Lexeme
  | [] => ([], [])
  | top :: below =>
    if column < top then
      let kept := remarks.takeWhile (·.1 ≥ top)
      let pos := (kept.getLast?.map (·.2)).getD pos
      let (indents, lexemes) := dedent column pos (remarks.drop kept.length) below
      (indents, lexemes ++ [⟨.dedent, "", pos, pos⟩])
    else (top :: below, [])

/-- Begins a line of code in the column. -/
def beginLine (s : Scan) (column : Nat) : Scan :=
  let s := { s with column := none, remarks := [] , items := s.items }
  if column > s.indents.head?.getD 0 then
    if s.opensBlock then
      { s with indents := column :: s.indents, items := ⟨.indent, "", s.pos, s.pos⟩ :: s.items }
    else s
  else s

/-- Ends a line of code. -/
def endLine (s : Scan) : Scan :=
  { s with items := ⟨.newline, "", s.pos, s.pos⟩ :: s.items, column := some 0, remarks := [] }

def closeBlocks (s : Scan) (column : Nat) : Scan :=
  let pos := (s.items.head?.map (·.stop)).getD 0
  let (indents, lexemes) := dedent column pos s.remarks.reverse s.indents
  { s with indents, items := lexemes ++ s.items }

/-- One step at the start of a line, in the given column. -/
def stepMargin (s : Scan) (column : Nat) : Scan :=
  match s.rest with
  | [] => s
  | '\n' :: _ | '\r' :: _ | '\x0c' :: _ => { s.skip 1 with column := some 0 }
  | '\t' :: _ => { s.skip 1 with column := some (column + 8) }
  | '#' :: _ =>
    let t := s.comment
    { t with remarks := (column, t.pos) :: t.remarks }
  | '\\' :: '\n' :: _ => s.extra "line_continuation" 2
  | '\\' :: '\r' :: '\n' :: _ => s.extra "line_continuation" 3
  | ' ' :: _ => { s.skip 1 with column := some (column + 1) }
  | c :: _ => if isBlank c then s.skip 1 else (s.closeBlocks column).beginLine column

/-! ### Numbers -/

/-- The length of a number at the start of the text and whether it is a whole one. -/
def number (text : List Char) : Nat × Bool :=
  let digits (cs : List Char) := cs.takeWhile (fun c => c.isDigit || c = '_')
  let exponent (cs : List Char) : Nat :=
    match cs with
    | e :: rest =>
      if e = 'e' || e = 'E' then
        match rest with
        | c :: more =>
          if c.isDigit then 1 + (digits rest).length
          else if (c = '+' || c = '-') && more.head?.any Char.isDigit then 2 + (digits more).length
          else 0
        | [] => 0
      else 0
    | [] => 0
  let suffix (marks : List Char) (cs : List Char) : Nat := if cs.head?.any marks.contains then 1 else 0
  match text with
  | '0' :: x :: rest =>
    if ['x', 'X', 'o', 'O', 'b', 'B'].contains x then
      let n := 2 + (rest.takeWhile (fun c => c.isAlphanum && c ≠ 'l' && c ≠ 'L' || c = '_')).length
      (n + suffix ['l', 'L'] (text.drop n), true)
    else plain digits exponent suffix text
  | _ => plain digits exponent suffix text
where
  plain (digits : List Char → List Char) (exponent : List Char → Nat) (suffix : List Char → List Char → Nat)
      (text : List Char) : Nat × Bool :=
    let whole := (digits text).length
    match text.drop whole with
    | '.' :: rest =>
      let n := whole + 1 + (if rest.head?.any Char.isDigit then (digits rest).length else 0)
      let n := n + exponent (text.drop n)
      (n + suffix ['j', 'J'] (text.drop n), false)
    | rest =>
      let e := exponent rest
      let n := whole + e
      if e > 0 then (n + suffix ['j', 'J'] (text.drop n), false)
      else (n + suffix ['l', 'L', 'j', 'J'] rest, true)

/-! ### Strings -/

def isQuote (c : Char) : Bool := c = '"' || c = '\''

/-- The quote that the word and the mark behind it open. -/
def quoteOf (word : List Char) (rest : List Char) : Option Quote :=
  match rest with
  | q :: more =>
    if isQuote q && word.all ("fFrRbBuUtT".toList.contains ·) then
      some {
        mark := q
        triple := more.take 2 = [q, q]
        raw := word.any (fun c => c = 'r' || c = 'R')
        bytes := word.any (fun c => c = 'b' || c = 'B')
        format := word.any ("fFtT".toList.contains ·) }
    else none
  | [] => none

def closing (q : Quote) : List Char := if q.triple then [q.mark, q.mark, q.mark] else [q.mark]

/-- The length of the escape that the text begins with, or zero. -/
def escape (text : List Char) : Nat :=
  let hex (n : Nat) (cs : List Char) : Nat :=
    if (cs.take n).length = n && (cs.take n).all
      (fun c => c.isDigit || ('a' ≤ c && c ≤ 'f') || ('A' ≤ c && c ≤ 'F')) then n + 2 else 0
  match text with
  | '\\' :: 'u' :: rest => hex 4 rest
  | '\\' :: 'U' :: rest => hex 8 rest
  | '\\' :: 'x' :: rest => hex 2 rest
  | '\\' :: '\n' :: _ => 2
  | '\\' :: '\r' :: '\n' :: _ => 3
  | '\\' :: 'N' :: '\x7b' :: rest =>
    let name := rest.takeWhile (· ≠ '\x7d')
    if name.isEmpty || (rest.drop name.length).isEmpty then 0 else name.length + 4
  | '\\' :: c :: rest =>
    if "'\"abfrntv\\".toList.contains c then 2
    else if ((c :: rest).take 3).length = 3 && ((c :: rest).take 3).all Char.isDigit then 4 else 0
  | _ => 0

/-- One step inside the text of a string. -/
def stepText (s : Scan) (q : Quote) : Scan :=
  let close := closing q
  if close.isPrefixOf s.rest then (s.emit (.leaf "string_end") close).pop else
  match s.rest with
  | [] => s
  | '\x7b' :: more =>
    if !q.format then s.emit .filler ['\x7b']
    else if more.head? = some '\x7b' then s.emit (.leaf "escape_interpolation") ['\x7b', '\x7b']
    else (s.emit .mark ['\x7b']).push .hole
  | '\x7d' :: more =>
    if q.format && more.head? = some '\x7d' then s.emit (.leaf "escape_interpolation") ['\x7d', '\x7d']
    else s.emit .filler ['\x7d']
  | '\\' :: more =>
    if q.raw then s.emit .filler (s.rest.take 2)
    else
      let n := if q.bytes && more.head?.any ("NuU".toList.contains ·) then 0 else escape s.rest
      if n > 0 then s.emit (.leaf "escape_sequence") (s.rest.take n) else s.emit .filler ['\\']
  | c :: rest =>
    let run := rest.takeWhile (fun c => c ≠ q.mark && c ≠ '\\' && c ≠ '\x7b' && c ≠ '\x7d')
    s.emit .filler (c :: run)

/-- One step inside the layout of a format string's expression. -/
def stepLayout (s : Scan) : Scan :=
  match s.rest with
  | [] => s
  | '\x7b' :: _ => (s.emit .mark ['\x7b']).push .hole
  | '\x7d' :: _ => ((s.emit .mark ['\x7d']).pop).pop
  | c :: rest => s.emit .filler (c :: rest.takeWhile (fun c => c ≠ '\x7b' && c ≠ '\x7d' && c ≠ '\n'))

/-! ### Code -/

def stepMark (s : Scan) (c : Char) : Scan :=
  let t := s.emit .mark [c]
  -- The lexeme knows the whole operator but covers one character.
  let t := match t.items with
    | x :: items => { t with items := { x with text := String.ofList (longestMark operators s.rest) } :: items }
    | [] => t
  match c with
  | '(' | '[' | '\x7b' => t.push .bracket
  | ')' | ']' | '\x7d' => t.pop
  | _ => t

def stepCode (s : Scan) : Scan :=
  match s.rest with
  | [] => s
  | c :: more =>
    if c = '\n' || (c = '\r' && s.frames.isEmpty && more.head? = some '\n') then
      if s.frames.isEmpty then
        let t := s.endLine
        t.skip (if c = '\r' then 2 else 1)
      else s.skip 1
    else if isBlank c then s.skip 1
    else if c = '#' then s.comment
    else if c = '\\' then
      match more with
      | '\n' :: _ => s.extra "line_continuation" 2
      | '\r' :: '\n' :: _ => s.extra "line_continuation" 3
      | _ => s.emit .mark [c]
    else if c.isDigit || (c = '.' && more.head?.any Char.isDigit) then
      let (n, whole) := number s.rest
      s.emit (.leaf (if whole then "integer" else "float")) (s.rest.take n)
    else
      let word := if isLetter c then s.rest.takeWhile isWordChar else []
      match quoteOf word (s.rest.drop word.length) with
      | some q => (s.emit (.leaf "string_start") (word ++ closing q)).push (.text q)
      | none =>
        if isLetter c then s.emit (.word (reserved.contains (String.ofList word))) word
        else
          match s.frames.head?, c with
          | some .hole, ':' => (s.emit .mark [':']).push .layout
          | some .hole, '!' =>
            if more.head?.any Char.isLower then s.emit (.leaf "type_conversion") (s.rest.take 2) else s.stepMark c
          | _, _ => s.stepMark c

def step (s : Scan) : Scan :=
  match s.column, s.frames with
  | some column, _ => s.stepMargin column
  | none, .text q :: _ => s.stepText q
  | none, .layout :: _ => s.stepLayout
  | none, _ => s.stepCode

def run : Nat → Scan → Scan
  | 0, s => s
  | n + 1, s => if s.rest.isEmpty then s else run n s.step

/-- Ends the last line and closes all blocks. -/
def finish (s : Scan) : Scan :=
  let s := if s.column.isNone then s.endLine else s
  s.closeBlocks 0

end Scan

/-- Every second step at the latest reads a character. -/
def lexemes (source : List Char) : Lexemes :=
  let s := (Scan.run (2 * source.length + 1) ⟨source, 0, some 0, [], [0], [], [], []⟩).finish
  ⟨s.items.reverse.toArray, s.extras.reverse, source.length⟩

end SyntaxTally.Syntax.Python
