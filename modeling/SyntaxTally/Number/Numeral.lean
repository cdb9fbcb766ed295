import SyntaxTally.Failure
import SyntaxTally.Text.Digit

/-!
# Numerals

The decimal numeral of an integer. An integer with more digits than are read has none.
-/
namespace SyntaxTally.Number

/-- Why an integer has no numeral. -/
def tooLong : Crash :=
  .told "ValueError" (s!"Exceeds the limit ({Text.mostDigits} digits) for integer string conversion"
    ++ "; use sys.set_int_max_str_digits() to increase the limit")

/-- The least number that has no numeral. -/
def bound : Nat := Nat.pow 10 Text.mostDigits

def Overlong (n : Int) : Prop := bound ≤ n.natAbs

instance (n : Int) : Decidable (Overlong n) := inferInstanceAs (Decidable (bound ≤ n.natAbs))

def numeral (n : Int) : Except Crash String := if Overlong n then .error tooLong else .ok (toString n)

theorem numeral_eq_error_iff {n : Int} {crash : Crash} : numeral n = .error crash ↔ crash = tooLong ∧ Overlong n := by
  unfold numeral
  split
  · rename_i long
    simp [long, eq_comm]
  · rename_i short
    simp [short]

theorem numeral_eq_ok_iff {n : Int} {text : String} : numeral n = .ok text ↔ text = toString n ∧ ¬ Overlong n := by
  unfold numeral
  split
  · rename_i long
    simp [long]
  · rename_i short
    simp [short, eq_comm]

end SyntaxTally.Number
