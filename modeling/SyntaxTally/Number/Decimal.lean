import SyntaxTally.Number.Double
import SyntaxTally.Text.Digit

/-!
# Doubles in decimal

A double is written with the fewest digits that read back as it, and of those with the nearest.
-/
namespace SyntaxTally.Double

/-! ### Writing -/

/-- The whole part of the decimal logarithm of a positive quotient; the fuel bounds the negative ones. -/
def log10Div (n d : Nat) : Nat → Int
  | 0 => 0
  | fuel + 1 => if d ≤ n then ((toString (n / d)).length : Int) - 1 else log10Div (n * 10) d fuel - 1

/-- A candidate `c` times ten to the `s` compared with `n / d`. -/
def atMost (c : Nat) (s : Int) (n d : Nat) : Bool :=
  if 0 ≤ s then c * Nat.pow 10 s.toNat * d ≤ n else c * d ≤ n * Nat.pow 10 (-s).toNat

def below (c : Nat) (s : Int) (n d : Nat) : Bool :=
  if 0 ≤ s then c * Nat.pow 10 s.toNat * d < n else c * d < n * Nat.pow 10 (-s).toNat

/-- The numbers that round to a double: from `low` to `high` over `unit`, with the ends if `closed`. -/
structure Interval where
  low : Nat
  value : Nat
  high : Nat
  unit : Nat
  closed : Bool

def intervalOf (m : Nat) (e : Int) : Interval :=
  let power := if 0 ≤ e then Nat.pow 2 e.toNat else 1
  let gap := if m = Nat.pow 2 52 && leastExponent < e then 1 else 2
  { low := (4 * m - gap) * power, value := 4 * m * power, high := (4 * m + 2) * power
    unit := 4 * if 0 ≤ e then 1 else Nat.pow 2 (-e).toNat, closed := m % 2 = 0 }

def Interval.holds (i : Interval) (c : Nat) (s : Int) : Bool :=
  if i.closed then !below c s i.low i.unit && atMost c s i.high i.unit
  else !atMost c s i.low i.unit && below c s i.high i.unit

/-- The candidate on this grid of powers of ten, if one lies in the interval: the nearer of the value's two
neighbours, and the even one if both are as near. -/
def Interval.candidate? (i : Interval) (s : Int) : Option Nat :=
  let c := if 0 ≤ s then i.value / (i.unit * Nat.pow 10 s.toNat) else i.value * Nat.pow 10 (-s).toNat / i.unit
  match i.holds c s, i.holds (c + 1) s with
  | true, true =>
    let middle := atMost (2 * c + 1) s (2 * i.value) i.unit
    let beyond := below (2 * c + 1) s (2 * i.value) i.unit
    some (if beyond || (middle && c % 2 = 1) then c + 1 else c)
  | true, false => some c
  | false, true => some (c + 1)
  | false, false => none

/-- Tries one digit, two digits, and so on. -/
def Interval.shortest (i : Interval) (top : Int) : Nat → Nat → Nat × Int
  | 0, digits => (0, top - digits)
  | fuel + 1, digits =>
    let s := top - digits + 1
    match i.candidate? s with
    | some c => (c, s)
    | none => i.shortest top fuel (digits + 1)

/-- Digits without zeros at their end, and the power of ten that they count. -/
def dropZeros : Nat → Nat → Int → Nat × Int
  | 0, c, s => (c, s)
  | fuel + 1, c, s => if c % 10 = 0 && c ≠ 0 then dropZeros fuel (c / 10) (s + 1) else (c, s)

/-- The shortest digits of a positive double and the power of ten that they count. -/
def digitsOf (m : Nat) (e : Int) : Nat × Int :=
  let i := intervalOf m e
  let (c, s) := i.shortest (log10Div i.value i.unit 400) 17 1
  dropZeros 20 c s

/-- Positional from a ten-thousandth up to ten to the sixteenth, with a point in any case; else with an
exponent of at least two digits. -/
def decimal (digits : List Char) (s : Int) : String :=
  let top := s + digits.length - 1
  if -4 ≤ top && top < 16 then
    if 0 ≤ s then String.ofList (digits ++ List.replicate s.toNat '0') ++ ".0"
    else if 0 ≤ top then
      String.ofList (digits.take (top.toNat + 1)) ++ "." ++ String.ofList (digits.drop (top.toNat + 1))
    else "0." ++ String.ofList (List.replicate (-top - 1).toNat '0' ++ digits)
  else
    let tail := if digits.length ≤ 1 then "" else "." ++ String.ofList (digits.drop 1)
    let power := toString top.natAbs
    String.ofList (digits.take 1) ++ tail ++ "e" ++ (if top < 0 then "-" else "+") ++
      (if power.length < 2 then "0" ++ power else power)

def toText : Double → String
  | nan => "nan"
  | infinite negative => if negative then "-inf" else "inf"
  | finite negative m e =>
    let sign := if negative then "-" else ""
    if m = 0 then sign ++ "0.0"
    else
      let (c, s) := digitsOf m e
      sign ++ decimal (toString c).toList s

/-! ### Reading -/

/-- The leading digits, and the rest. -/
def digitsAt (text : List Char) : List Nat × List Char :=
  let run := text.takeWhile fun c => (Text.digitValue? c).isSome
  (run.filterMap Text.digitValue?, text.drop run.length)

/-- The exponent at the end of a number. -/
def exponent? : List Char → Option Int
  | [] => some 0
  | c :: rest =>
    if c = 'e' || c = 'E' then
      let (negative, rest) := match rest with
        | '-' :: rest => (true, rest)
        | '+' :: rest => (false, rest)
        | rest => (false, rest)
      match digitsAt rest with
      | (digit :: digits, []) =>
        let n : Int := Text.ofDigits 10 (digit :: digits)
        some (if negative then -n else n)
      | _ => none
    else none

/-- The double that a text spells, with blanks around it. -/
def ofText? (text : List Char) : Option Double :=
  let (negative, text) := match Text.trim Text.isNumberBlank text with
    | '-' :: rest => (true, rest)
    | '+' :: rest => (false, rest)
    | rest => (false, rest)
  let word := String.ofList (text.map Char.toLower)
  if word = "nan" then some nan
  else if word = "inf" || word = "infinity" then some (infinite negative)
  else
    let (whole, rest) := digitsAt text
    let (fraction, rest) := match rest with
      | '.' :: rest => digitsAt rest
      | rest => ([], rest)
    if whole.isEmpty && fraction.isEmpty then none
    else
      (exponent? rest).map fun power =>
        ofDecimal negative (Text.ofDigits 10 (whole ++ fraction)) (power - fraction.length)

end SyntaxTally.Double
