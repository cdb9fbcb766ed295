/-!
# Double-precision numbers

A finite double is a whole number of at most 53 bits times a power of two. Sums, products and quotients
are exact first and then rounded to the nearest double, a tie to the even one.
-/
namespace SyntaxTally

inductive Double where
  | nan
  | infinite (negative : Bool)
  /-- `mantissa` times two to the `exponent`. -/
  | finite (negative : Bool) (mantissa : Nat) (exponent : Int)
  deriving DecidableEq

namespace Double

def leastExponent : Int := -1074

def greatestExponent : Int := 971

/-- The quotient rounded to the nearest whole number, a tie to the even one. -/
def roundDiv (n d : Nat) : Nat :=
  let q := n / d
  let twice := 2 * (n % d)
  if twice < d then q else if d < twice then q + 1 else if q % 2 = 0 then q else q + 1

/-- The whole part of the binary logarithm of a positive quotient. -/
def log2Div (n d : Nat) : Int :=
  let guess : Int := (Nat.log2 n : Int) - Nat.log2 d
  let reached := if 0 ≤ guess then d * Nat.pow 2 guess.toNat ≤ n else d ≤ n * Nat.pow 2 (-guess).toNat
  if reached then guess else guess - 1

/-- The double nearest to a quotient. -/
def ofDiv (negative : Bool) (n d : Nat) : Double :=
  if n = 0 then finite negative 0 leastExponent
  else
    let e := max leastExponent (log2Div n d - 52)
    let m := if 0 ≤ e then roundDiv n (d * Nat.pow 2 e.toNat) else roundDiv (n * Nat.pow 2 (-e).toNat) d
    let (m, e) := if m = Nat.pow 2 53 then (Nat.pow 2 52, e + 1) else (m, e)
    if greatestExponent < e then infinite negative else finite negative m e

/-- The double nearest to a whole number times a power of ten. Powers far out of range are not worked out. -/
def ofDecimal (negative : Bool) (digits : Nat) (exponent : Int) : Double :=
  if digits = 0 then finite negative 0 leastExponent
  else
    let size : Int := (toString digits).length + exponent
    if 400 < size then infinite negative
    else if size < -400 then finite negative 0 leastExponent
    else if 0 ≤ exponent then ofDiv negative (digits * Nat.pow 10 exponent.toNat) 1
    else ofDiv negative digits (Nat.pow 10 (-exponent).toNat)

def neg : Double → Double
  | nan => nan
  | infinite negative => infinite !negative
  | finite negative m e => finite (!negative) m e

/-- Numerator, with the sign, and denominator of a finite double. -/
def ratio (negative : Bool) (m : Nat) (e : Int) : Int × Nat :=
  let n : Int := if 0 ≤ e then m * Nat.pow 2 e.toNat else m
  (if negative then -n else n, if 0 ≤ e then 1 else Nat.pow 2 (-e).toNat)

def ofRatio (n : Int) (d : Nat) : Double := ofDiv (n < 0) n.natAbs d

def add : Double → Double → Double
  | finite s m e, finite s' m' e' =>
    let (n, d) := ratio s m e
    let (n', d') := ratio s' m' e'
    let sum := n * d' + n' * d
    if sum = 0 then finite (s && s') 0 leastExponent else ofRatio sum (d * d')
  | nan, _ => nan
  | _, nan => nan
  | infinite s, infinite s' => if s = s' then infinite s else nan
  | infinite s, _ => infinite s
  | _, infinite s => infinite s

/-- A double times a positive whole number, which is rounded first. -/
def scale (factor : Nat) : Double → Double
  | nan => nan
  | infinite s => infinite s
  | finite s m e =>
    match ofDiv false factor 1 with
    | finite _ f g =>
      let (n, d) := ratio false m e
      let (n', d') := ratio false f g
      ofDiv s (n.toNat * n'.toNat) (d * d')
    | other => if m = 0 then nan else if s then neg other else other

def isZero : Double → Bool
  | finite _ m _ => m = 0
  | _ => false

end Double

end SyntaxTally
