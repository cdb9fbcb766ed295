import Mathlib.Data.List.Perm.Basic
import SyntaxTally.Analyzer.Engine
import SyntaxTally.Proofs.Counts

/-!
# Counting captures

The counts of a query are those of the nodes that all its matches captured, in whatever order the matches come
(`get?_captureCounts`, `get?_captureCounts_perm`).
-/
namespace SyntaxTally

/-- The number under a name, which is zero if the name is absent. -/
def Counts.number (c : Counts) (name : String) : Int := (c.get? name).getD 0

namespace Query

variable {ν : Type}

/-- The captured nodes of a match, each with its name. -/
def pairsOf (found : Match ν) : List (String × ν) := found.flatMap fun entry => entry.2.map (entry.1, ·)

/-- How many nodes the matches captured under the name. -/
def captured (name : String) (found : List (Match ν)) : Nat := (found.flatMap pairsOf).countP (·.1 = name)

theorem pairsOf_flatten (found : List (Match ν)) : pairsOf found.flatten = found.flatMap pairsOf := by
  rw [pairsOf, ← List.flatMap_id, List.flatMap_assoc]
  rfl

theorem mem_names_of_mem_pairsOf {found : Match ν} {pair : String × ν} (among : pair ∈ pairsOf found) :
    pair.1 ∈ found.map (·.1) := by
  obtain ⟨entry, listed, inside⟩ := List.mem_flatMap.mp among
  obtain ⟨node, -, rfl⟩ := List.mem_map.mp inside
  exact List.mem_map.mpr ⟨entry, listed, rfl⟩

theorem countP_pairsOf_cons (name first : String) (nodes : List ν) (rest : Match ν) :
    (pairsOf ((first, nodes) :: rest)).countP (·.1 = name) =
      (if first = name then nodes.length else 0) + (pairsOf rest).countP (·.1 = name) := by
  rw [pairsOf, List.flatMap_cons, List.countP_append, List.countP_map]
  by_cases same : first = name <;> simp [Function.comp_def, same, pairsOf]

/-- What the entries of matches give to a name: the number of nodes under it, or nothing if it is not among them. -/
theorem given_lengths (entries : Match ν) (name : String) :
    Counts.given (entries.map fun (name, nodes) => (name, (nodes.length : Int))) name =
      Counts.ofFound
        (if name ∈ entries.map (·.1) then some ((pairsOf entries).countP (·.1 = name) : Int) else none) := by
  induction entries with
  | nil => rfl
  | cons entry rest ih =>
    obtain ⟨first, nodes⟩ := entry
    rw [List.map_cons, Counts.given_cons, ih, countP_pairsOf_cons, List.map_cons]
    by_cases here : first = name
    · subst here
      by_cases again : first ∈ rest.map (·.1)
      · simp only [again, List.mem_cons, true_or, if_true, Counts.ofFound_some, ← WithZero.coe_add]
        rw [Int.natCast_add]
      · have none : (pairsOf rest).countP (·.1 = first) = 0 := by
          rw [List.countP_eq_zero]
          intro pair among same
          obtain rfl : pair.1 = first := by simpa using same
          exact again (mem_names_of_mem_pairsOf among)
        simp only [again, List.mem_cons, true_or, if_true, if_false, Counts.ofFound_some, Counts.ofFound_none, none,
          add_zero]
    · have other : name ≠ first := fun same => here same.symm
      simp only [here, other, List.mem_cons, false_or, if_false, zero_add]

/-- A name is present if a match has it, with the number of nodes that were captured under it. -/
theorem get?_captureCounts (found : List (Match ν)) (name : String) :
    (captureCounts found).get? name =
      if name ∈ found.flatten.map (·.1) then some (captured name found : Int) else none := by
  apply Counts.ofFound_inj
  rw [captureCounts, Counts.get?_ofEntries, given_lengths, pairsOf_flatten]
  rfl

theorem number_captureCounts (found : List (Match ν)) (name : String) :
    (captureCounts found).number name = captured name found := by
  rw [Counts.number, get?_captureCounts]
  split
  · rfl
  · rename_i absent
    have none : captured name found = 0 := by
      rw [captured, ← pairsOf_flatten, List.countP_eq_zero]
      intro pair among same
      obtain rfl : pair.1 = name := by simpa using same
      exact absent (mem_names_of_mem_pairsOf among)
    rw [none]
    rfl

theorem captured_perm {found others : List (Match ν)} (same : found.Perm others) (name : String) :
    captured name found = captured name others :=
  (same.flatMap_right pairsOf).countP_eq _

theorem get?_captureCounts_perm {found others : List (Match ν)} (same : found.Perm others) (name : String) :
    (captureCounts found).get? name = (captureCounts others).get? name := by
  rw [get?_captureCounts, get?_captureCounts, captured_perm same]
  exact if_congr (same.flatten.map _).mem_iff rfl rfl

/-- If every name of a match has a node, names that are present have a positive number. -/
theorem one_le_of_get?_captureCounts {found : List (Match ν)} (occupied : ∀ m ∈ found, ∀ entry ∈ m, entry.2 ≠ [])
    {name : String} {n : Int} (present : (captureCounts found).get? name = some n) : 1 ≤ n := by
  rw [get?_captureCounts] at present
  split at present
  · rename_i among
    obtain rfl := Option.some.inj present
    obtain ⟨entry, listed, rfl⟩ := List.mem_map.mp among
    obtain ⟨m, of, inside⟩ := List.mem_flatten.mp listed
    obtain ⟨node, here⟩ := List.exists_mem_of_ne_nil _ (occupied m of entry inside)
    have counted : 0 < captured entry.1 found := by
      rw [captured, List.countP_pos_iff]
      refine ⟨(entry.1, node), List.mem_flatMap.mpr ⟨m, of, ?_⟩, by simp⟩
      exact List.mem_flatMap.mpr ⟨entry, inside, List.mem_map.mpr ⟨node, here, rfl⟩⟩
    omega
  · cases present

end Query

end SyntaxTally
