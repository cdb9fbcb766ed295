import SyntaxTally.Text.Blank

/-!
# Integers in text

The decimal digits of all scripts, and the integer that a text spells: blanks around it, a sign, digits
and single underscores between them.
-/
namespace SyntaxTally.Text

/-- The zeros of all scripts; the other nine digits follow each of them. -/
def zeroPlaces : List Nat := [
  0x30, 0x660, 0x6F0, 0x7C0, 0x966, 0x9E6, 0xA66, 0xAE6, 0xB66, 0xBE6, 0xC66, 0xCE6, 0xD66, 0xDE6,
  0xE50, 0xED0, 0xF20, 0x1040, 0x1090, 0x17E0, 0x1810, 0x1946, 0x19D0, 0x1A80, 0x1A90, 0x1B50,
  0x1BB0, 0x1C40, 0x1C50, 0xA620, 0xA8D0, 0xA900, 0xA9D0, 0xA9F0, 0xAA50, 0xABF0, 0xFF10, 0x104A0,
  0x10D30, 0x11066, 0x110F0, 0x11136, 0x111D0, 0x112F0, 0x11450, 0x114D0, 0x11650, 0x116C0,
  0x11730, 0x118E0, 0x11950, 0x11C50, 0x11D50, 0x11DA0, 0x16A60, 0x16AC0, 0x16B50, 0x1D7CE,
  0x1D7D8, 0x1D7E2, 0x1D7EC, 0x1D7F6, 0x1E140, 0x1E2F0, 0x1E950, 0x1FBF0]

/-- The value of a decimal digit. -/
def digitValue? (c : Char) : Option Nat :=
  (zeroPlaces.find? fun place => place ≤ c.toNat && c.toNat < place + 10).map (c.toNat - ·)

/-- The most digits that are read. -/
def mostDigits : Nat := 4300

/-- The number that the digit values spell in the base. -/
def ofDigits (base : Nat) (values : List Nat) : Nat := values.foldl (fun n d => n * base + d) 0

/-- The blanks that may stand around an integer: white space, but for the ASCII separators. -/
def isNumberBlank (c : Char) : Bool := isSpace c && !(28 ≤ c.toNat && c.toNat ≤ 31)

/-- The value of a digit in a base of up to thirty-six. -/
def digitIn? (base : Nat) (c : Char) : Option Nat :=
  let value? :=
    if c.isLower then some (c.toNat - 'a'.toNat + 10)
    else if c.isUpper then some (c.toNat - 'A'.toNat + 10)
    else digitValue? c
  value?.filter (· < base)

/-- Why a text spells no integer. -/
inductive IntegerFault where
  | invalid
  /-- There are more digits than are read. -/
  | tooLong (digits : Nat)
  deriving DecidableEq

/-- No underscore stands at an end or beside another one. -/
def singleUnderscores : List Char → Bool
  | [] => true
  | ['_'] => false
  | '_' :: '_' :: _ => false
  | _ :: rest => singleUnderscores rest

/-- The digits without the mark that a base may have before them. -/
def withoutBaseMark (base : Nat) : List Char → List Char
  | '0' :: mark :: rest =>
    if (base, mark.toLower) ∈ [(2, 'b'), (8, 'o'), (16, 'x')] then
      match rest with
      | '_' :: digits => digits
      | digits => digits
    else '0' :: mark :: rest
  | text => text

/-- The number that the digits spell. -/
def naturalIn (base : Nat) (text : List Char) : Except IntegerFault Nat :=
  let digits := text.takeWhile fun c => c = '_' || (digitIn? base c).isSome
  let values := digits.filterMap (digitIn? base)
  if digits.head? = some '_' || !singleUnderscores digits || values.isEmpty then .error .invalid
  else if base = 10 && mostDigits < values.length then .error (.tooLong values.length)
  else if digits.length < text.length then .error .invalid
  else .ok (ofDigits base values)

/-- The integer that the text spells in the base. -/
def integerIn (base : Nat) (text : List Char) : Except IntegerFault Int :=
  match trim isNumberBlank text with
  | '-' :: rest => (naturalIn base (withoutBaseMark base rest)).map fun n => -(n : Int)
  | '+' :: rest => (naturalIn base (withoutBaseMark base rest)).map Int.ofNat
  | rest => (naturalIn base (withoutBaseMark base rest)).map Int.ofNat

/-- The integer that the text spells. -/
def integer? (text : List Char) : Option Int := (integerIn 10 text).toOption

end SyntaxTally.Text
