import Mathlib.Algebra.BigOperators.Group.List.Basic
import Mathlib.Algebra.Group.Int.Defs
import Mathlib.Algebra.Group.Pi.Basic
import Mathlib.Algebra.Group.WithOne.Basic
import SyntaxTally.Pipeline.Basic

/-!
# Counts add up

To a name, counts give a number or nothing, and combining them adds these up, where nothing is neutral. In
the same way a sum of counts that has not begun is neutral for the sums. So the total of a list of counts is
the sum of its members, whichever way they are combined, and does not depend on their order.
-/
namespace SyntaxTally

namespace Counts

/-- What entries give to a name, all added up. -/
def given (entries : List (String × Int)) (name : String) : WithZero Int :=
  (entries.map fun entry => if entry.1 = name then (entry.2 : WithZero Int) else 0).sum

def value (c : Counts) (name : String) : WithZero Int := given c.entries name

@[simp] theorem given_nil (name : String) : given [] name = 0 := rfl

@[simp] theorem given_cons (entry : String × Int) (rest : List (String × Int)) (name : String) :
    given (entry :: rest) name = (if entry.1 = name then (entry.2 : WithZero Int) else 0) + given rest name := by
  simp [given]

/-! ### Combining adds -/

theorem given_addEntry (name : String) (n : Int) (entries : List (String × Int)) (other : String) :
    given (addEntry name n entries) other = given entries other + if name = other then (n : WithZero Int) else 0 := by
  induction entries with
  | nil => simp [addEntry]
  | cons entry rest ih =>
    obtain ⟨first, m⟩ := entry
    unfold addEntry
    by_cases same : first = name
    · subst same
      by_cases asked : first = other
      · simp [asked, add_right_comm]
      · simp [asked]
    · rw [if_neg same, given_cons, given_cons, ih, add_assoc]

theorem value_add (c : Counts) (name : String) (n : Int) (other : String) :
    (c.add name n).value other = c.value other + if name = other then (n : WithZero Int) else 0 :=
  given_addEntry name n c.entries other

theorem value_addAll (c : Counts) (entries : List (String × Int)) :
    (c.addAll entries).value = c.value + given entries := by
  induction entries generalizing c with
  | nil => funext name; simp [addAll]
  | cons entry rest ih =>
    funext name
    rw [addAll, List.foldl_cons, ← addAll, ih, Pi.add_apply, Pi.add_apply, value_add, given_cons, add_assoc]

theorem value_combine (a b : Counts) : (a.combine b).value = a.value + b.value :=
  value_addAll a b.entries

/-! ### What is found under a name -/

/-- A number that may be missing, where a missing one adds nothing. -/
def ofFound : Option Int → WithZero Int
  | none => 0
  | some n => n

@[simp] theorem ofFound_none : ofFound none = 0 := rfl

@[simp] theorem ofFound_some (n : Int) : ofFound (some n) = n := rfl

theorem ofFound_inj {a b : Option Int} (same : ofFound a = ofFound b) : a = b := by
  cases a <;> cases b <;> simp_all

/-- With distinct names, what a name is given is what is found under it. -/
theorem given_eq_lookup {entries : List (String × Int)} (distinct : (entries.map (·.1)).Nodup) (name : String) :
    given entries name = ofFound (entries.lookup name) := by
  induction entries with
  | nil => rfl
  | cons entry rest ih =>
    obtain ⟨first, m⟩ := entry
    obtain ⟨new, distinct⟩ := List.nodup_cons.mp distinct
    rw [given_cons, ih distinct]
    by_cases same : name = first
    · subst same
      have absent : rest.lookup name = none := by
        rw [List.lookup_eq_none_iff]
        intro other listed
        have different : name ≠ other.1 := by
          rintro rfl
          exact new (List.mem_map.mpr ⟨other, listed, rfl⟩)
        simpa using different
      simp [absent]
    · have other : first ≠ name := fun equal => same equal.symm
      have passed : (name == first) = false := beq_eq_false_iff_ne.mpr same
      simp [other, passed, List.lookup_cons]

theorem value_eq_get? (c : Counts) (name : String) : c.value name = ofFound (c.get? name) :=
  given_eq_lookup c.nodup name

theorem get?_eq_of_value_eq {a b : Counts} (same : a.value = b.value) (name : String) :
    a.get? name = b.get? name := by
  have here := congrFun same name
  rw [value_eq_get?, value_eq_get?] at here
  exact ofFound_inj here

theorem get?_ofEntries (entries : List (String × Int)) (name : String) :
    ofFound ((ofEntries entries).get? name) = given entries name := by
  rw [← value_eq_get?, ofEntries, value_addAll, Pi.add_apply]
  exact zero_add _

end Counts

/-! ### Sums that may not have begun -/

/-- The value of a sum; none has begun if there is nothing to add. -/
def total : Option Counts → WithZero (String → WithZero Int)
  | none => 0
  | some counts => (counts.value : WithZero (String → WithZero Int))

@[simp] theorem total_none : total none = 0 := rfl

@[simp] theorem total_some (counts : Counts) :
    total (some counts) = (counts.value : WithZero (String → WithZero Int)) :=
  rfl

theorem total_addTo (sum : Option Counts) (counts : Counts) :
    total (addTo sum counts) = total sum + (counts.value : WithZero (String → WithZero Int)) := by
  cases sum with
  | none => simp [addTo]
  | some sum => simp [addTo, Counts.value_combine]

theorem total_pairs (counts : List Counts) :
    ((Counts.pairs counts).map fun c => total (some c)).sum = (counts.map fun c => total (some c)).sum := by
  fun_induction Counts.pairs counts with
  | case1 a b rest ih =>
    rw [List.map_cons, List.sum_cons, ih]
    simp [Counts.value_combine, add_assoc]
  | case2 => rfl

theorem total_reduce (counts : List Counts) :
    total (Counts.reduce counts) = (counts.map fun c => total (some c)).sum := by
  fun_induction Counts.reduce counts with
  | case1 => rfl
  | case2 only => simp
  | case3 a b rest ih => rw [ih, total_pairs]

/-- Sums of equal value are both not begun, or hold the same counts. -/
theorem same_of_total_eq {left right : Option Counts} (same : total left = total right) :
    (left = none ∧ right = none) ∨
      ∃ a b, left = some a ∧ right = some b ∧ ∀ name, a.get? name = b.get? name := by
  cases left with
  | none =>
    cases right with
    | none => exact .inl ⟨rfl, rfl⟩
    | some b => exact absurd same.symm WithZero.coe_ne_zero
  | some a =>
    cases right with
    | none => exact absurd same WithZero.coe_ne_zero
    | some b =>
      have values : a.value = b.value := WithZero.coe_inj.mp same
      exact .inr ⟨a, b, rfl, rfl, Counts.get?_eq_of_value_eq values⟩

end SyntaxTally
