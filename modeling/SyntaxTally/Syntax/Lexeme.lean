import SyntaxTally.Syntax.Grammar

/-!
# Lexemes

Lexemes, and the terminals by which grammars ask for them. Each punctuation character is a lexeme of
its own that knows the longest operator beginning there, so `>>` can be read as one operator or, where
a grammar asks for its parts, as two closing brackets.
-/
namespace SyntaxTally.Syntax

inductive Lexeme.Shape where
  | word (reserved : Bool)
  | mark
  | leaf (kind : String)
  | filler
  | newline
  | indent
  | dedent
  deriving DecidableEq

structure Lexeme where
  shape : Lexeme.Shape
  /-- The word, or the longest operator that begins here. -/
  text : String
  start : Nat
  stop : Nat

inductive Terminal where
  | word (text : String)
  | mark (text : String)
  /-- The first character of an operator. -/
  | part (c : Char)
  /-- A word that is not reserved, as a node of the kind. -/
  | name (kind : String)
  /-- Any word, reserved or not, as a node of the kind. -/
  | anyWord (kind : String)
  /-- One of the words, as an anonymous node. -/
  | wordOf (texts : List String)
  | wordAs (texts : List String) (kind : String)
  /-- Any operator but a bracket. -/
  | anyMark
  | markAs (text : String) (kind : String)
  | leaf (kind : String)
  /-- Text inside a literal that makes no node. -/
  | filler
  | newline
  | indent
  | dedent
  /-- The end of the text. -/
  | finish

/-- A text cut into lexemes, with the comments that stand between them. -/
structure Lexemes where
  items : Array Lexeme
  extras : List Tree
  length : Nat

namespace Lexemes

def brackets : List String := ["(", ")", "[", "]", "\x7b", "\x7d"]

def step (lexemes : Lexemes) (t : Terminal) (i : Nat) : Option (Nat × List Tree) :=
  match lexemes.items[i]? with
  | none => match t with
    | .finish => some (i, [])
    | _ => none
  | some x =>
    match t, x.shape with
    | .word text, .word _ =>
      if x.text = text then some (i + 1, [.leaf text false x.start x.stop]) else none
    | .mark text, .mark =>
      if x.text = text then some (i + text.length, [.leaf text false x.start (x.start + text.length)]) else none
    | .part c, .mark =>
      if x.text.front = c then some (i + 1, [.leaf (String.singleton c) false x.start (x.start + 1)]) else none
    | .name kind, .word false => some (i + 1, [.leaf kind true x.start x.stop])
    | .anyWord kind, .word _ => some (i + 1, [.leaf kind true x.start x.stop])
    | .wordOf texts, .word _ =>
      if texts.contains x.text then some (i + 1, [.leaf x.text false x.start x.stop]) else none
    | .anyMark, .mark =>
      if brackets.contains x.text then none
      else some (i + x.text.length, [.leaf x.text false x.start (x.start + x.text.length)])
    | .wordAs texts kind, .word _ =>
      if texts.contains x.text then some (i + 1, [.leaf kind true x.start x.stop]) else none
    | .markAs text kind, .mark =>
      if x.text = text then some (i + text.length, [.leaf kind true x.start (x.start + text.length)]) else none
    | .leaf kind, .leaf kind' => if kind = kind' then some (i + 1, [.leaf kind true x.start x.stop]) else none
    | .filler, .filler => some (i + 1, [])
    | .newline, .newline => some (i + 1, [])
    | .indent, .indent => some (i + 1, [])
    | .dedent, .dedent => some (i + 1, [])
    | _, _ => none

def lexis (lexemes : Lexemes) : Lexis Terminal where
  step := lexemes.step
  start i := (lexemes.items[i]?.map (·.start)).getD lexemes.length
  stop i := (lexemes.items[i]?.map (·.stop)).getD lexemes.length

/-- A bound on the depth of a reading: a rule nests a few hundred deep at most before it reads a
lexeme. -/
def depth (lexemes : Lexemes) : Nat := 500 * (lexemes.items.size + 2)

/-- The whole text read as `start`, with its comments hung in; `none` if it does not fit. The root
covers the text from its first lexeme or comment to its end. -/
def tree? {ν : Type} (lexemes : Lexemes) (rules : ν → Rule ν Terminal) (start : ν) : Option Tree :=
  match read rules lexemes.lexis lexemes.depth (.ref start) 0 with
  | some (_, [t]) => some (t.withExtras lexemes.extras)
  | _ => none

end Lexemes

/-! ### Cutting words and operators from a text -/

/-- Blanks between lexemes: the Unicode white space, and the invisible marks that editors leave. -/
def isBlank (c : Char) : Bool :=
  c = ' ' || ('\t' ≤ c && c ≤ '\r') || (c.toNat ≥ 0x80 &&
    [0x85, 0xA0, 0x1680, 0x2000, 0x2001, 0x2002, 0x2003, 0x2004, 0x2005, 0x2006, 0x2007, 0x2008, 0x2009, 0x200A,
      0x200B, 0x2028, 0x2029, 0x202F, 0x205F, 0x2060, 0x3000, 0xFEFF].contains c.toNat)

/-- Beyond ASCII every character that is no blank is a letter: a text that fits its grammar has
others only inside literals and comments. -/
def isLetter (c : Char) : Bool :=
  c.isAlpha || c = '_' || (c.toNat ≥ 0x80 && !isBlank c)

def isWordChar (c : Char) : Bool := isLetter c || c.isDigit

/-- The longest of the operators that the text begins with, or its first character. -/
def longestMark (operators : List (List Char)) (text : List Char) : List Char :=
  operators.foldl (fun best op => if best.length < op.length && op.isPrefixOf text then op else best) (text.take 1)

end SyntaxTally.Syntax
