/-!
# Blanks and line ends

Which characters are white space, cutting them off both ends of a text, and cutting a text into lines.
-/
namespace SyntaxTally.Text

/-- White space, with the separators of the ASCII control block. -/
def isSpace (c : Char) : Bool :=
  let n := c.toNat
  (9 ≤ n && n ≤ 13) || (28 ≤ n && n ≤ 32) || n = 0x85 || n = 0xA0 || n = 0x1680 || (0x2000 ≤ n && n ≤ 0x200A) ||
    n = 0x2028 || n = 0x2029 || n = 0x202F || n = 0x205F || n = 0x3000

/-- The text without the characters at its ends that meet the condition. -/
def trim (blank : Char → Bool) (text : List Char) : List Char :=
  ((text.dropWhile blank).reverse.dropWhile blank).reverse

/-- The text without the white space at its ends. -/
def strip (text : List Char) : List Char := trim isSpace text

/-- The characters that end a line. A carriage return and a line feed together end one line. -/
def isLineEnd (c : Char) : Bool :=
  let n := c.toNat
  (10 ≤ n && n ≤ 13) || (28 ≤ n && n ≤ 30) || n = 0x85 || n = 0x2028 || n = 0x2029

/-- The lines of a text without their ends, behind the characters of a line begun before it. A last
line is there only if it has characters. -/
def linesFrom (begun : List Char) : List Char → List (List Char)
  | [] => if begun.isEmpty then [] else [begun.reverse]
  | '\r' :: '\n' :: rest => begun.reverse :: linesFrom [] rest
  | c :: rest => if isLineEnd c then begun.reverse :: linesFrom [] rest else linesFrom (c :: begun) rest

/-- The lines of a text without their ends. -/
def lines (text : List Char) : List (List Char) := linesFrom [] text

/-- Line ends of other systems written as a line feed. -/
def newlines : List Char → List Char
  | [] => []
  | '\r' :: '\n' :: rest => '\n' :: newlines rest
  | '\r' :: rest => '\n' :: newlines rest
  | c :: rest => c :: newlines rest

end SyntaxTally.Text
