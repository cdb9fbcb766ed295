import Mathlib.Data.List.Sort
import Mathlib.Data.String.Basic
import SyntaxTally.Proofs.Reduction
import SyntaxTally.Report.Table

/-!
# Rows in the order of their names

The order in which names came up, and with it the order in which workers are done, is gone from the entries that are
shown: these are in the order of the code points of their names, each name once, so what is counted under which name
decides them (`shownEntries_eq_of_same`), and with them the rows and the whole table. Rows are made unless one of the
counts is too long to be written (`mapM_rowOf_of_short`, `mapM_rowOf_of_long`).
-/
namespace SyntaxTally

open Number

variable {counts other : Counts} {name text : String} {n : Int}

/-! ### Names and what is counted under them -/

theorem Counts.mem_entries_iff : (name, n) ∈ counts.entries ↔ counts.get? name = some n := by
  obtain ⟨entries, distinct⟩ := counts
  unfold Counts.get?
  dsimp only
  induction entries with
  | nil => simp
  | cons entry rest ih =>
    obtain ⟨first, m⟩ := entry
    obtain ⟨new, others⟩ := List.nodup_cons.mp distinct
    rw [List.mem_cons, ih others, List.lookup_cons]
    by_cases same : name = first
    · subst same
      have once : ¬ rest.lookup name = some n := by
        intro found
        exact new (List.mem_map.mpr ⟨(name, n), (ih others).mpr found, rfl⟩)
      simp [once, eq_comm]
    · simp [same, beq_eq_false_iff_ne.mpr same]

namespace Report

/-- The code points of a name, by which names are ordered. -/
def codePoints (name : String) : List Nat := name.toList.map Char.toNat

theorem map_toNat_lt_iff {left right : List Char} :
    left.map Char.toNat < right.map Char.toNat ↔ left < right := by
  induction left generalizing right with
  | nil => cases right <;> simp
  | cons c left ih =>
    cases right with
    | nil => simp
    | cons d right =>
      have same : c.toNat = d.toNat ↔ c = d := Char.toNat_inj
      have less : c.toNat < d.toNat ↔ c < d := Iff.rfl
      rw [List.map_cons, List.map_cons, List.cons_lt_cons_iff, List.cons_lt_cons_iff, ih, same, less]

theorem codePoints_lt_iff {left right : String} : codePoints left < codePoints right ↔ left < right := by
  unfold codePoints
  rw [map_toNat_lt_iff, String.lt_iff_toList_lt]

theorem isReserved_iff : isReserved name = true ↔ name.toList.head? = some '_' := by
  unfold isReserved
  rw [String.startsWith_string_iff]
  cases name.toList with
  | nil => simp
  | cons c rest => simp [eq_comm]

/-! ### What is shown -/

/-- The name is shown, with this count. -/
def Shows (counts : Counts) (name : String) (n : Int) : Prop :=
  counts.get? name = some n ∧ name.toList.head? ≠ some '_'

theorem shownEntries_eq (counts : Counts) : shownEntries counts =
    (counts.entries.filter fun entry => !isReserved entry.1).mergeSort fun a b => a.1 ≤ b.1 :=
  rfl

theorem mem_filter_of_shown {entry : String × Int} (listed : entry ∈ shownEntries counts) :
    entry ∈ counts.entries.filter fun entry => !isReserved entry.1 :=
  List.mem_mergeSort.mp listed

theorem mem_shownEntries_iff : (name, n) ∈ shownEntries counts ↔ Shows counts name n := by
  rw [shownEntries_eq, List.mem_mergeSort, List.mem_filter, Counts.mem_entries_iff, Bool.not_eq_true',
    Bool.eq_false_iff, Ne, isReserved_iff]
  rfl

theorem pairwise_shownEntries (counts : Counts) :
    (shownEntries counts).Pairwise fun entry next => codePoints entry.1 < codePoints next.1 := by
  have sorted := List.mergeSort_perm (counts.entries.filter fun entry => !isReserved entry.1) fun a b => a.1 ≤ b.1
  have once := counts.nodup.sublist ((List.filter_sublist (p := fun entry => !isReserved entry.1)).map Prod.fst)
  rw [← (sorted.map Prod.fst).nodup_iff, List.Nodup, List.pairwise_map] at once
  have ordered := List.pairwise_mergeSort' (fun a b : String × Int => a.1 ≤ b.1)
    (counts.entries.filter fun entry => !isReserved entry.1)
  refine (ordered.and once).imp ?_
  rintro a b ⟨notAbove, different⟩
  apply codePoints_lt_iff.mpr
  exact lt_of_le_of_ne notAbove different

/-- What is shown is decided by its order and by what is counted under which name. -/
theorem shownEntries_eq_of_same (same : other.get? = counts.get?) : shownEntries other = shownEntries counts := by
  have members : ∀ entry, entry ∈ shownEntries other ↔ entry ∈ shownEntries counts := by
    rintro ⟨name, n⟩
    rw [mem_shownEntries_iff, mem_shownEntries_iff, Shows, Shows, same]
  have order := pairwise_shownEntries counts
  have orderOther := pairwise_shownEntries other
  have apart : ∀ {left right : String × Int}, codePoints left.1 < codePoints right.1 → left ≠ right := by
    rintro left _ less rfl
    exact lt_irrefl _ less
  have perm : (shownEntries other).Perm (shownEntries counts) :=
    (List.perm_ext_iff_of_nodup (orderOther.imp apart) (order.imp apart)).mpr members
  refine perm.eq_of_pairwise ?_ orderOther order
  intro left right _ _ less more
  exact absurd more (lt_asymm less)

theorem get?_combine_comm (counts other : Counts) : (counts.combine other).get? = (other.combine counts).get? := by
  funext name
  rw [Counts.get?_combine, Counts.get?_combine]
  cases counts.get? name <;> cases other.get? name <;> simp [Int.add_comm]

/-! ### The rows -/

/-- The entries with their numerals. -/
def written (entries : List (String × Int)) : List (String × String) :=
  entries.map fun entry => (entry.1, toString entry.2)

theorem mapM_rowOf_of_short {entries : List (String × Int)} (short : ∀ entry ∈ entries, ¬ Overlong entry.2) :
    entries.mapM rowOf = .ok (written entries) := by
  induction entries with
  | nil => rfl
  | cons entry rest ih =>
    obtain ⟨here, later⟩ := List.forall_mem_cons.mp short
    rw [List.mapM_cons, rowOf, numeral_eq_ok_iff.mpr ⟨rfl, here⟩, ih later]
    rfl

theorem mapM_rowOf_of_long {entries : List (String × Int)} (long : ∃ entry ∈ entries, Overlong entry.2) :
    entries.mapM rowOf = .error tooLong := by
  induction entries with
  | nil => simp at long
  | cons entry rest ih =>
    rw [List.mapM_cons, rowOf]
    by_cases here : Overlong entry.2
    · rw [numeral_eq_error_iff.mpr ⟨rfl, here⟩]
      rfl
    · obtain ⟨other, listed, long⟩ := long
      have later : ∃ entry ∈ rest, Overlong entry.2 := by
        rcases List.mem_cons.mp listed with rfl | listed
        · exact absurd long here
        · exact ⟨other, listed, long⟩
      rw [numeral_eq_ok_iff.mpr ⟨rfl, here⟩, ih later]
      rfl

theorem mem_written_iff : (name, text) ∈ written (shownEntries counts) ↔
    ∃ n, Shows counts name n ∧ text = toString n := by
  rw [written, List.mem_map]
  constructor
  · rintro ⟨⟨found, n⟩, listed, same⟩
    obtain ⟨rfl, rfl⟩ := Prod.mk.inj same
    exact ⟨n, mem_shownEntries_iff.mp listed, rfl⟩
  · rintro ⟨n, shows, rfl⟩
    exact ⟨(name, n), mem_shownEntries_iff.mpr shows, rfl⟩

theorem rows_eq_of_same (same : other.get? = counts.get?) : rows other = rows counts := by
  rw [rows, shownEntries_eq_of_same same]
  rfl

/-! ### The table -/

theorem table_eq_of_rows (painter : Painter) (same : rows other = rows counts) (width terminal : Nat) :
    table painter other width terminal = table painter counts width terminal := by
  unfold table
  rw [same]

theorem table_reduce_perm (painter : Painter) {sums others : List Counts} (same : others.Perm sums)
    (width terminal : Nat) :
    (Counts.reduce others).map (table painter · width terminal) =
      (Counts.reduce sums).map (table painter · width terminal) := by
  have equal := Counts.map_get?_fold_perm same
  rw [Counts.reduce_eq_fold, Counts.reduce_eq_fold]
  cases left : Counts.fold others with
  | none =>
    rw [left] at equal
    rw [Option.map_eq_none_iff.mp equal.symm]
  | some merged =>
    rw [left] at equal
    obtain ⟨sum, right, found⟩ := Option.map_eq_some_iff.mp equal.symm
    rw [right, Option.map_some, Option.map_some, table_eq_of_rows painter (rows_eq_of_same found.symm)]

/-- A reserved name, a count of zero, one below zero, and names that differ in case. -/
def shuffled : Counts := .ofEntries [("string", 2), ("_callee", 7), ("function.call", 0), ("String", -1)]

def unshuffled : Counts := .ofEntries [("String", -1), ("function.call", 0), ("_callee", 7), ("string", 2)]

end Report

end SyntaxTally
