/-!
# Counts

Counts by name, kept in the order in which the names came up. Two counts are combined name by name, and
a list of counts from one end or pairwise, level by level.
-/
namespace SyntaxTally

structure Counts where
  entries : List (String × Int)
  nodup : (entries.map (·.1)).Nodup
  deriving DecidableEq

namespace Counts

def empty : Counts := ⟨[], .nil⟩

def names (c : Counts) : List String := c.entries.map (·.1)

def get? (c : Counts) (name : String) : Option Int := c.entries.lookup name

/-- The entries with `n` added under the name, which comes last if it is new. -/
def addEntry (name : String) (n : Int) : List (String × Int) → List (String × Int)
  | [] => [(name, n)]
  | (other, m) :: rest =>
    if other = name then (other, m + n) :: rest else (other, m) :: addEntry name n rest

theorem mem_names_addEntry {name other : String} {n : Int} {entries : List (String × Int)} :
    other ∈ (addEntry name n entries).map (·.1) ↔ other = name ∨ other ∈ entries.map (·.1) := by
  induction entries with
  | nil => simp [addEntry]
  | cons entry rest ih =>
    obtain ⟨first, m⟩ := entry
    rw [addEntry]
    split
    · rename_i same
      simp [same]
    · rw [List.map_cons, List.map_cons, List.mem_cons, List.mem_cons, ih]
      exact or_left_comm

theorem nodup_addEntry {name : String} {n : Int} {entries : List (String × Int)}
    (nodup : (entries.map (·.1)).Nodup) : ((addEntry name n entries).map (·.1)).Nodup := by
  induction entries with
  | nil => simp [addEntry]
  | cons entry rest ih =>
    obtain ⟨first, m⟩ := entry
    obtain ⟨new, distinct⟩ := List.nodup_cons.mp nodup
    rw [addEntry]
    split
    · exact nodup
    · rename_i different
      refine List.nodup_cons.mpr ⟨fun again => ?_, ih distinct⟩
      rcases mem_names_addEntry.mp again with same | before
      · exact different same
      · exact new before

def add (c : Counts) (name : String) (n : Int) : Counts := ⟨addEntry name n c.entries, nodup_addEntry c.nodup⟩

def addAll (c : Counts) (entries : List (String × Int)) : Counts := entries.foldl (fun c (name, n) => c.add name n) c

/-- The numbers under each name added up. -/
def ofEntries (entries : List (String × Int)) : Counts := empty.addAll entries

def combine (a b : Counts) : Counts := a.addAll b.entries

/-- All counts combined from the first on; `none` if there are none. -/
def fold : List Counts → Option Counts
  | [] => none
  | first :: rest => some (rest.foldl combine first)

/-- Neighbours combined two by two; a last one without a neighbour is kept. -/
def pairs : List Counts → List Counts
  | a :: b :: rest => a.combine b :: pairs rest
  | rest => rest

theorem length_pairs (counts : List Counts) : (pairs counts).length = (counts.length + 1) / 2 := by
  fun_induction pairs counts with
  | case1 a b rest ih => simp [ih]; omega
  | case2 rest more =>
    match rest, more with
    | [], _ => rfl
    | [_], _ => simp
    | a :: b :: rest, more => exact absurd rfl (more a b rest)

/-- All counts combined pairwise until one is left; `none` if there are none. -/
def reduce : List Counts → Option Counts
  | [] => none
  | [only] => some only
  | a :: b :: rest => reduce (pairs (a :: b :: rest))
termination_by counts => counts.length
decreasing_by
  have := length_pairs (a :: b :: rest)
  simp at this ⊢
  omega

end Counts

end SyntaxTally
