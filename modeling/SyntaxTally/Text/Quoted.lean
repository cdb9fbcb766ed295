import SyntaxTally.Text.Printable

/-!
# Quoted text

Messages show a text between quotes, with what cannot be printed written as an escape.
-/
namespace SyntaxTally.Text

/-- The lower-case hexadecimal digits of a number, with leading zeros up to the width. -/
def hex (width : Nat) (n : Nat) : String :=
  let digits := Nat.toDigits 16 n
  String.ofList (List.replicate (width - digits.length) '0' ++ digits)

/-- One character as it stands between the given quotes. -/
def quotedChar (quote : Char) (c : Char) : String :=
  if c = quote || c = '\\' then String.ofList ['\\', c]
  else if c = '\t' then "\\t"
  else if c = '\n' then "\\n"
  else if c = '\r' then "\\r"
  else if isPrintable c then c.toString
  else if c.toNat < 0x100 then "\\x" ++ hex 2 c.toNat
  else if c.toNat < 0x10000 then "\\u" ++ hex 4 c.toNat
  else "\\U" ++ hex 8 c.toNat

/-- The text in single quotes, or in double quotes if only single ones occur in it. -/
def quoted (text : String) : String :=
  let chars := text.toList
  let quote := if chars.contains '\'' && !chars.contains '"' then '"' else '\''
  let inside := String.join (chars.map (quotedChar quote))
  quote.toString ++ inside ++ quote.toString

end SyntaxTally.Text
