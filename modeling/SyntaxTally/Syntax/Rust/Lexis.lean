import SyntaxTally.Syntax.Lexeme

/-!
# Lexemes of Rust

Rust source text as lexemes. Block comments nest; a quote opens a character or, where no quote closes
it, a lifetime; a number behind a dot that selects a field has no fraction.
-/
namespace SyntaxTally.Syntax.Rust

def reserved : List String :=
  ["as", "async", "await", "break", "const", "continue", "crate", "dyn", "else", "enum", "extern", "false", "fn",
    "for", "if", "impl", "in", "let", "loop", "macro_rules!", "match", "mod", "move", "mut", "pub", "ref", "return",
    "self", "static", "struct", "super", "trait", "true", "type", "unsafe", "use", "where", "while", "yield"]

def operators : List (List Char) :=
  ["<<=", ">>=", "..=", "...", "::", "->", "=>", "==", "!=", "<=", ">=", "&&", "||", "+=", "-=", "*=", "/=", "%=", "^=",
    "&=", "|=", "<<", ">>", ".."].map String.toList

/-- A scan in progress: the lexemes and comments so far, latest first. -/
structure Scan where
  rest : List Char
  pos : Nat
  items : List Lexeme
  extras : List Tree

namespace Scan

def emit (s : Scan) (shape : Lexeme.Shape) (text : String) (length : Nat) : Scan :=
  { s with
    items := ⟨shape, text, s.pos, s.pos + length⟩ :: s.items
    rest := s.rest.drop length
    pos := s.pos + length }

def skip (s : Scan) (n : Nat) : Scan := { s with rest := s.rest.drop n, pos := s.pos + n }

/-! ### Comments -/

/-- The length of a block comment behind its opening mark; comments inside it are skipped whole. -/
def blockLength : Nat → List Char → Nat
  | _, [] => 0
  | depth, '/' :: '*' :: rest => 2 + blockLength (depth + 1) rest
  | 0, '*' :: '/' :: _ => 2
  | depth + 1, '*' :: '/' :: rest => 2 + blockLength depth rest
  | depth, _ :: rest => 1 + blockLength depth rest

/-- A comment node with its marks; a documentation comment also has its marker and its text. -/
def commentNode (kind : String) (open_ close : List Char) (text : List Char) (pos : Nat) : Tree :=
  let stop := pos + text.length
  let inner := text.drop 2
  let opening := Tree.leaf (String.ofList open_) false pos (pos + 2)
  let closing := if close.isEmpty then [] else [Tree.leaf (String.ofList close) false (stop - 2) stop]
  let marker : Option String :=
    match kind, inner with
    | "line_comment", '/' :: '/' :: _ => none
    | "line_comment", '/' :: _ => some "outer"
    | "block_comment", '*' :: '*' :: _ => none
    | "block_comment", '*' :: '/' :: _ => none
    | "block_comment", '*' :: _ => some "outer"
    | _, '!' :: _ => some "inner"
    | _, _ => none
  let doc := match marker with
    | none => []
    | some side =>
      [(Tree.leaf (side ++ "_doc_comment_marker") true (pos + 2) (pos + 3)).inField side,
        (Tree.leaf "doc_comment" true (pos + 3) (stop - close.length)).inField "doc"]
  .node ⟨kind, true, none, [], pos, stop⟩ (opening :: doc ++ closing)

def comment (s : Scan) (kind : String) (open_ close : List Char) (length : Nat) : Scan :=
  { s.skip length with extras := commentNode kind open_ close (s.rest.take length) s.pos :: s.extras }

/-! ### Numbers -/

/-- The length of a number and whether it is a whole one. -/
def number (text : List Char) : Nat × Bool :=
  let digits (cs : List Char) := (cs.takeWhile (fun c => c.isDigit || c = '_')).length
  let letters (cs : List Char) := (cs.takeWhile (fun c => c.isAlphanum || c = '_')).length
  match text with
  | '0' :: x :: _ =>
    if ['x', 'b', 'o'].contains x then (letters text, true) else plain digits letters text
  | _ => plain digits letters text
where
  plain (digits letters : List Char → Nat) (text : List Char) : Nat × Bool :=
    let whole := digits text
    let (n, fraction) := match text.drop whole with
      | '.' :: rest =>
        if rest.head?.any (fun c => c = '.' || isLetter c) then (whole, false)
        else (whole + 1 + digits rest, true)
      | _ => (whole, false)
    let exponent := match text.drop n with
      | e :: rest =>
        if e = 'e' || e = 'E' then
          match rest with
          | sign :: more =>
            if (sign = '+' || sign = '-') && more.head?.any Char.isDigit then 2 + digits more
            else if sign.isDigit then 1 + digits rest else 0
          | [] => 0
        else 0
      | [] => 0
    let n := n + exponent
    (n + letters (text.drop n), !(fraction || exponent > 0))

/-- The number behind a dot that selects a field ends where its digits end. -/
def behindDot (s : Scan) : Bool :=
  match s.items with
  | x :: y :: _ =>
    x.shape = .mark && x.text = "." && x.stop = s.pos && !(y.shape = .mark && y.stop = x.start && y.text.front = '.')
  | _ => false

/-! ### Literals -/

/-- The length of the escape that the text begins with. -/
def escape (text : List Char) : Nat :=
  match text with
  | '\\' :: 'x' :: _ => 4
  | '\\' :: 'u' :: '\x7b' :: rest => 4 + (rest.takeWhile (· ≠ '\x7d')).length
  | '\\' :: 'u' :: _ => 6
  | _ => 2

/-- The length of a character literal behind its opening quote, or zero if there is none. -/
def charLength (text : List Char) : Nat :=
  match text with
  | '\\' :: _ =>
    let n := escape text
    if (text.drop n).head? = some '\'' then n + 1 else 0
  | c :: '\'' :: _ => if c = '\'' then 0 else 2
  | _ => 0

/-- A string up to its closing quote, cut into plain text and escapes. -/
def string : Nat → Scan → Scan
  | 0, s => s
  | fuel + 1, s =>
    match s.rest with
    | [] => s
    | '"' :: _ => s.emit .mark "\"" 1
    | '\\' :: _ => string fuel (s.emit (.leaf "escape_sequence") "" (escape s.rest))
    | _ =>
      let run := s.rest.takeWhile (fun c => c ≠ '"' && c ≠ '\\')
      string fuel (s.emit (.leaf "string_content") "" run.length)

/-- The length of a raw string's text, up to a quote with as many hashes behind it. -/
def rawLength (hashes : Nat) : List Char → Nat
  | [] => 0
  | '"' :: rest => if (rest.take hashes).length = hashes && (rest.take hashes).all (· = '#') then 0 else 1 + rawLength hashes rest
  | _ :: rest => 1 + rawLength hashes rest

/-- A raw string behind the letters that announce it, if there is one. -/
def rawString? (s : Scan) (letters : Nat) : Option Scan :=
  let after := s.rest.drop letters
  let hashes := (after.takeWhile (· = '#')).length
  match after.drop hashes with
  | '"' :: body =>
    let n := rawLength hashes body
    some (((s.emit .filler "" (letters + hashes + 1)).emit (.leaf "string_content") "" n).emit .filler "" (hashes + 1))
  | _ => none

/-! ### Words and marks -/

def stepWord (s : Scan) : Scan :=
  let word := s.rest.takeWhile isWordChar
  let after := s.rest.drop word.length
  let text := String.ofList word
  let behindQuote := match s.items with
    | x :: _ => x.shape = .mark && x.text = "'" && x.stop = s.pos
    | [] => false
  let plain := s.emit (.word (reserved.contains text && !behindQuote)) text word.length
  match text, after with
  | "b", '\'' :: rest =>
    let n := charLength rest
    if n > 0 then s.emit (.leaf "char_literal") "" (n + 2) else plain
  | "b", '"' :: _ | "c", '"' :: _ => string (s.rest.length) (s.emit .mark "\"" 2)
  | "r", '#' :: c :: _ =>
    if isLetter c then
      let name := (after.drop 1).takeWhile isWordChar
      s.emit (.word false) ("r#" ++ String.ofList name) (2 + name.length)
    else (s.rawString? 1).getD plain
  | "r", '"' :: _ => (s.rawString? 1).getD plain
  | "br", '"' :: _ | "br", '#' :: _ | "cr", '"' :: _ | "cr", '#' :: _ => (s.rawString? 2).getD plain
  | "macro_rules", '!' :: _ => s.emit (.word true) "macro_rules!" 12
  | _, _ => plain

def stepMark (s : Scan) : Scan := s.emit .mark (String.ofList (longestMark operators s.rest)) 1

def step (s : Scan) : Scan :=
  match s.rest with
  | [] => s
  | '/' :: '/' :: _ => s.comment "line_comment" ['/', '/'] [] (s.rest.takeWhile (· ≠ '\n')).length
  | '/' :: '*' :: rest => s.comment "block_comment" ['/', '*'] ['*', '/'] (2 + blockLength 0 rest)
  | '"' :: _ => string s.rest.length (s.emit .mark "\"" 1)
  | '\'' :: rest =>
    let n := charLength rest
    if n > 0 then s.emit (.leaf "char_literal") "" (n + 1) else s.emit .mark "'" 1
  | '$' :: c :: rest =>
    if isLetter c then s.emit (.leaf "metavariable") "" (2 + (rest.takeWhile isWordChar).length)
    else s.stepMark
  | c :: _ =>
    if isBlank c then s.skip 1
    else if c.isDigit then
      if s.behindDot then s.emit (.leaf "integer_literal") "" (s.rest.takeWhile Char.isDigit).length
      else
        let (n, whole) := number s.rest
        s.emit (.leaf (if whole then "integer_literal" else "float_literal")) "" n
    else if isLetter c then s.stepWord
    else s.stepMark

def run : Nat → Scan → Scan
  | 0, s => s
  | n + 1, s => if s.rest.isEmpty then s else run n s.step

/-- A first line that names an interpreter; `#![` opens an attribute instead. -/
def shebang (s : Scan) : Scan :=
  match s.rest with
  | '#' :: '!' :: rest =>
    if (rest.dropWhile (fun c => c ≠ '\n' && isBlank c)).head? = some '[' then s
    else s.emit (.leaf "shebang") "" (2 + (rest.takeWhile (· ≠ '\n')).length)
  | _ => s

end Scan

/-- Every step reads a character. -/
def lexemes (source : List Char) : Lexemes :=
  let s := Scan.run source.length (Scan.shebang ⟨source, 0, [], []⟩)
  ⟨s.items.reverse.toArray, s.extras.reverse, source.length⟩

end SyntaxTally.Syntax.Rust
