import SyntaxTally.Failure

/-!
# Places in a YAML text

What is left of a text, with the line and the column it begins at.
-/
namespace SyntaxTally.Yaml

/-- Why a text gives no value. -/
inductive Fault where
  /-- The text is no YAML. -/
  | malformed (reason : String)
  /-- The text is YAML, but one of its values cannot be made. -/
  | impossible (crash : Crash)
  deriving DecidableEq

structure Cursor where
  rest : List Char
  index : Nat := 0
  line : Nat := 0
  column : Nat := 0

/-! ### Classes of characters -/

def isBreak (c : Char) : Bool := c = '\n' || c.toNat = 0x85 || c.toNat = 0x2028 || c.toNat = 0x2029

/-- Nothing, or the end of a line. -/
def endsLine : Option Char → Bool
  | none => true
  | some c => isBreak c

/-- Nothing, the end of a line, or a space. -/
def endsWord : Option Char → Bool
  | some ' ' => true
  | c => endsLine c

/-- Nothing, the end of a line, a space or a tab. -/
def endsToken : Option Char → Bool
  | some '\t' => true
  | c => endsWord c

def isAmong (chars : String) : Option Char → Bool
  | none => false
  | some c => chars.toList.contains c

/-- The characters a YAML text may hold. -/
def isAllowed (c : Char) : Bool :=
  let n := c.toNat
  n = 9 || n = 10 || n = 13 || (0x20 ≤ n && n ≤ 0x7E) || n = 0x85 || (0xA0 ≤ n && n ≤ 0xFFFD) || 0x10000 ≤ n

/-- The characters of anchors and of directive names. -/
def isNameChar (c : Char) : Bool := c.isAlphanum || c = '-' || c = '_'

def byteOrderMark : Char := Char.ofNat 0xFEFF

namespace Cursor

def peek (c : Cursor) : Option Char := c.rest.head?

def peekAt (c : Cursor) (n : Nat) : Option Char := c.rest[n]?

/-- Past one character. -/
def next (c : Cursor) : Cursor :=
  match c.rest with
  | [] => c
  | char :: rest =>
    if isBreak char then ⟨rest, c.index + 1, c.line + 1, 0⟩
    else ⟨rest, c.index + 1, c.line, if char = byteOrderMark then c.column else c.column + 1⟩

/-- Past some characters. -/
def skip (c : Cursor) : Nat → Cursor
  | 0 => c
  | n + 1 => c.next.skip n

/-- Past all characters at the head that meet the condition. -/
def skipWhile (c : Cursor) (p : Char → Bool) : Cursor := c.skip (c.rest.takeWhile p).length

def skipSpaces (c : Cursor) : Cursor := c.skipWhile (· = ' ')

/-- To the end of the line. -/
def skipLine (c : Cursor) : Cursor := c.skipWhile (!isBreak ·)

/-- Past the end of a line, if one is here, and what it stands for in a text. -/
def lineBreak (c : Cursor) : List Char × Cursor :=
  match c.peek with
  | some char =>
    if char.toNat = 0x2028 || char.toNat = 0x2029 then ([char], c.next)
    else if isBreak char then (['\n'], c.next)
    else ([], c)
  | none => ([], c)

/-- A line of three dashes or dots is here, which ends a document. -/
def atSeparator (c : Cursor) : Bool :=
  let head := c.rest.take 3
  (head = ['-', '-', '-'] || head = ['.', '.', '.']) && endsToken (c.peekAt 3)

/-- Past blanks and a comment to the end of the line, where nothing else may stand. -/
def ignoredLine (c : Cursor) : Except Fault Cursor :=
  let c := c.skipSpaces
  let c := if c.peek = some '#' then c.skipLine else c
  if endsLine c.peek then .ok c.lineBreak.2 else .error (.malformed "expected a comment or a line break")

end Cursor

end SyntaxTally.Yaml
