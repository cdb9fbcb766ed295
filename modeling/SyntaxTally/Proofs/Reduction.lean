import Mathlib.Algebra.BigOperators.Group.List.Basic
import Mathlib.Algebra.Ring.Int.Defs
import Mathlib.Data.List.Perm.Basic
import SyntaxTally.Proofs.Counts

/-!
# Every way of adding up

Combining is associative, with the order of the names and all. So a list of counts gives the same whether it is
combined from one end or pairwise, level by level, and also when it is cut into shares that are combined each on
its own. When the counts are dealt out in another order only the order of the names changes: `IsSum` says
which counts are the sum of a list, and leaves just that order open.
-/
namespace SyntaxTally

namespace Counts

/-! ### Combining is associative -/

theorem addEntry_addEntry (name : String) (m n : Int) (entries : List (String × Int)) :
    addEntry name n (addEntry name m entries) = addEntry name (m + n) entries := by
  induction entries with
  | nil => simp [addEntry]
  | cons entry rest ih =>
    obtain ⟨first, k⟩ := entry
    by_cases same : first = name
    · simp [addEntry, same, Int.add_assoc]
    · simp [addEntry, same, ih]

theorem addEntry_comm_of_mem {name : String} {entries : List (String × Int)} (known : name ∈ entries.map (·.1))
    (n : Int) (other : String) (m : Int) :
    addEntry other m (addEntry name n entries) = addEntry name n (addEntry other m entries) := by
  induction entries with
  | nil => cases known
  | cons entry rest ih =>
    obtain ⟨first, k⟩ := entry
    by_cases same : first = name
    · by_cases asked : first = other
      · simp only [addEntry, same, ← asked, if_true, Int.add_right_comm]
      · have apart : name ≠ other := same ▸ asked
        simp [addEntry, same, apart]
    · have later : name ∈ rest.map (·.1) := by
        rcases List.mem_cons.mp known with here | later
        · exact absurd here.symm same
        · exact later
      by_cases asked : first = other
      · have apart : other ≠ name := asked ▸ same
        simp [addEntry, asked, apart]
      · simp [addEntry, same, asked, ih later]

theorem add_add (c : Counts) (name : String) (m n : Int) : (c.add name m).add name n = c.add name (m + n) := by
  simp [add, addEntry_addEntry]

theorem add_right_comm_of_mem {c : Counts} {name : String} (known : name ∈ c.names) (n : Int) (other : String)
    (m : Int) : (c.add name n).add other m = (c.add other m).add name n := by
  simp [add, addEntry_comm_of_mem known]

theorem mem_names_add {c : Counts} {name other : String} {m : Int} :
    name ∈ (c.add other m).names ↔ name = other ∨ name ∈ c.names :=
  mem_names_addEntry

theorem addAll_cons (a : Counts) (entry : String × Int) (rest : List (String × Int)) :
    a.addAll (entry :: rest) = (a.add entry.1 entry.2).addAll rest :=
  rfl

theorem add_addAll_of_mem {c : Counts} {name : String} (known : name ∈ c.names) (n : Int)
    (entries : List (String × Int)) : (c.add name n).addAll entries = (c.addAll entries).add name n := by
  induction entries generalizing c with
  | nil => rfl
  | cons entry rest ih =>
    rw [addAll_cons, addAll_cons, add_right_comm_of_mem known, ih (mem_names_add.mpr (.inr known))]

theorem addAll_addEntry (a : Counts) (name : String) (n : Int) (entries : List (String × Int)) :
    a.addAll (addEntry name n entries) = (a.addAll entries).add name n := by
  induction entries generalizing a with
  | nil => rfl
  | cons entry rest ih =>
    obtain ⟨first, m⟩ := entry
    by_cases same : first = name
    · subst same
      -- the name is known from here on, so that it does not matter when the rest of its count is added
      have known : first ∈ (a.add first m).names := mem_names_add.mpr (.inl rfl)
      rw [addAll_cons, ← add_addAll_of_mem known, add_add, addEntry, if_pos rfl, addAll_cons]
    · rw [addEntry, if_neg same, addAll_cons, addAll_cons, ih]

theorem addAll_addAll (a b : Counts) (entries : List (String × Int)) :
    a.addAll (b.addAll entries).entries = (a.addAll b.entries).addAll entries := by
  induction entries generalizing b with
  | nil => rfl
  | cons entry rest ih => rw [addAll_cons, addAll_cons, ih, add, addAll_addEntry]

theorem combine_assoc (a b c : Counts) : (a.combine b).combine c = a.combine (b.combine c) :=
  (addAll_addAll a b c.entries).symm

/-! ### From one end, pairwise and by shares -/

theorem foldl_combine_pairs (first : Counts) (rest : List Counts) :
    (pairs rest).foldl combine first = rest.foldl combine first := by
  fun_induction pairs rest generalizing first with
  | case1 a b rest ih => rw [List.foldl_cons, ih, List.foldl_cons, List.foldl_cons, combine_assoc]
  | case2 => rfl

theorem reduce_eq_fold (counts : List Counts) : reduce counts = fold counts := by
  fun_induction reduce counts with
  | case1 => rfl
  | case2 => rfl
  | case3 a b rest ih => rw [ih, pairs, fold, foldl_combine_pairs, fold, List.foldl_cons]

theorem foldl_combine_assoc (a b : Counts) (rest : List Counts) :
    rest.foldl combine (a.combine b) = a.combine (rest.foldl combine b) := by
  induction rest generalizing b with
  | nil => rfl
  | cons c rest ih => rw [List.foldl_cons, List.foldl_cons, combine_assoc, ih]

theorem foldl_combine_shares (first : Counts) (shares : List (List Counts)) :
    (shares.filterMap fold).foldl combine first = shares.flatten.foldl combine first := by
  induction shares generalizing first with
  | nil => rfl
  | cons share shares ih =>
    cases share with
    | nil => exact ih first
    | cons c rest =>
      have begun : fold (c :: rest) = some (rest.foldl combine c) := rfl
      rw [List.filterMap_cons_some begun, List.foldl_cons, ih, List.flatten_cons, List.foldl_append,
        List.foldl_cons, foldl_combine_assoc first c rest]

/-- The sums of the shares are combined to the sum of all. -/
theorem fold_shares (shares : List (List Counts)) : fold (shares.filterMap fold) = fold shares.flatten := by
  induction shares with
  | nil => rfl
  | cons share shares ih =>
    cases share with
    | nil => exact ih
    | cons c rest =>
      have begun : fold (c :: rest) = some (rest.foldl combine c) := rfl
      rw [List.filterMap_cons_some begun, fold, foldl_combine_shares, List.flatten_cons, List.cons_append, fold,
        List.foldl_append]

end Counts

theorem foldl_addTo (share : List Counts) : share.foldl addTo none = Counts.fold share := by
  cases share with
  | nil => rfl
  | cons first rest =>
    have begun : ∀ sum : Counts, rest.foldl addTo (some sum) = some (rest.foldl Counts.combine sum) := by
      induction rest with
      | nil => exact fun _ => rfl
      | cons c rest ih => exact fun sum => ih (sum.combine c)
    exact begun first

namespace Counts

/-! ### The sum of a list -/

theorem mem_names_iff {c : Counts} {name : String} : name ∈ c.names ↔ (c.get? name).isSome := by
  rw [names, get?, List.lookup_isSome_iff]
  simp

/-- The counts are the sum of the list: they have the names of all its members, also those whose count is zero,
and under each the sum of what is counted under it. -/
structure IsSum (counts : List Counts) (sum : Counts) : Prop where
  named : ∀ name, name ∈ sum.names ↔ ∃ c ∈ counts, name ∈ c.names
  summed : ∀ name ∈ sum.names, sum.get? name = some (counts.filterMap (·.get? name)).sum

theorem get?_combine (a b : Counts) (name : String) :
    (a.combine b).get? name = (a.get? name).merge (· + ·) (b.get? name) := by
  have added := congrFun (value_combine a b) name
  rw [Pi.add_apply, value_eq_get?, value_eq_get?, value_eq_get?] at added
  cases whole : (a.combine b).get? name <;> cases left : a.get? name <;> cases right : b.get? name <;>
    simp_all [← WithZero.coe_add]

theorem isSum_singleton (c : Counts) : IsSum [c] c := by
  refine ⟨by simp, fun name known => ?_⟩
  obtain ⟨n, found⟩ := Option.isSome_iff_exists.mp (mem_names_iff.mp known)
  simp [found]

theorem IsSum.combine {counts : List Counts} {sum : Counts} (isSum : IsSum counts sum) (c : Counts) :
    IsSum (counts ++ [c]) (sum.combine c) := by
  have found := get?_combine sum c
  have named : ∀ name, name ∈ (sum.combine c).names ↔ name ∈ sum.names ∨ name ∈ c.names := by
    intro name
    rw [mem_names_iff, mem_names_iff, mem_names_iff, found]
    cases sum.get? name <;> cases c.get? name <;> simp
  refine ⟨fun name => ?_, fun name known => ?_⟩
  · rw [named, isSum.named]
    simp [or_and_right, exists_or]
  · rw [found, List.filterMap_append, List.sum_append]
    by_cases before : name ∈ sum.names
    · rw [isSum.summed name before]
      cases here : c.get? name <;> simp [here]
    · have new : name ∈ c.names := ((named name).mp known).resolve_left before
      have absent : sum.get? name = none := by simpa [mem_names_iff] using before
      have unseen : counts.filterMap (·.get? name) = [] := by
        apply List.filterMap_eq_nil_iff.mpr
        intro other listed
        have missing : name ∉ other.names := fun here => before ((isSum.named name).mpr ⟨other, listed, here⟩)
        simpa [mem_names_iff] using missing
      obtain ⟨n, here⟩ := Option.isSome_iff_exists.mp (mem_names_iff.mp new)
      simp [absent, unseen, here]

theorem IsSum.foldl {counts : List Counts} {sum : Counts} (isSum : IsSum counts sum) (rest : List Counts) :
    IsSum (counts ++ rest) (rest.foldl Counts.combine sum) := by
  induction rest generalizing counts sum with
  | nil => simpa using isSum
  | cons c rest ih =>
    have next := ih (isSum.combine c)
    rwa [List.append_assoc] at next

theorem isSum_fold {counts : List Counts} {sum : Counts} (folded : fold counts = some sum) : IsSum counts sum := by
  cases counts with
  | nil => cases folded
  | cons first rest =>
    obtain rfl := Option.some.inj folded
    exact (isSum_singleton first).foldl rest

theorem IsSum.perm {counts others : List Counts} {sum : Counts} (isSum : IsSum counts sum)
    (same : counts.Perm others) : IsSum others sum where
  named name := by
    rw [isSum.named]
    exact exists_congr fun c => and_congr_left fun _ => same.mem_iff
  summed name known := by rw [isSum.summed name known, (same.filterMap _).sum_eq]

theorem IsSum.get?_eq {counts : List Counts} {left right : Counts} (isLeft : IsSum counts left)
    (isRight : IsSum counts right) : left.get? = right.get? := by
  funext name
  by_cases known : name ∈ left.names
  · have also : name ∈ right.names := (isRight.named name).mpr ((isLeft.named name).mp known)
    rw [isLeft.summed name known, isRight.summed name also]
  · have neither : name ∉ right.names := fun also => known ((isLeft.named name).mpr ((isRight.named name).mp also))
    rw [mem_names_iff, Option.not_isSome_iff_eq_none] at known neither
    rw [known, neither]

theorem fold_eq_none_iff {counts : List Counts} : fold counts = none ↔ counts = [] := by
  cases counts <;> simp [fold]

theorem map_get?_fold_perm {counts others : List Counts} (same : counts.Perm others) :
    (fold counts).map get? = (fold others).map get? := by
  cases folded : fold counts with
  | none =>
    obtain rfl := fold_eq_none_iff.mp folded
    rw [List.nil_perm.mp same]
    rfl
  | some sum =>
    have begun : fold others ≠ none := by
      rw [Ne, fold_eq_none_iff]
      rintro rfl
      rw [List.perm_nil.mp same] at folded
      cases folded
    obtain ⟨other, foldedOther⟩ := Option.ne_none_iff_exists'.mp begun
    have isSum := (isSum_fold folded).perm same
    rw [foldedOther, Option.map_some, Option.map_some, isSum.get?_eq (isSum_fold foldedOther)]

/-- Pairwise or from one end, the result is the sum of the list, and there is one unless the list is empty. When
the list is dealt out to workers in any way, each of them adds up its share, and the sums that have begun are
combined pairwise in any order, then the result has the same counts. -/
theorem every_reduction_sums (counts : List Counts) :
    reduce counts = fold counts ∧ (fold counts = none ↔ counts = []) ∧
    (∀ sum, fold counts = some sum → IsSum counts sum) ∧
    ∀ (shares : List (List Counts)) (partials : List Counts), shares.flatten.Perm counts →
      partials.Perm (shares.filterMap fun share => share.foldl addTo none) →
      (reduce partials).map get? = (fold counts).map get? := by
  refine ⟨reduce_eq_fold counts, fold_eq_none_iff, fun sum => isSum_fold, ?_⟩
  intro shares partials dealt ordered
  simp only [foldl_addTo] at ordered
  rw [reduce_eq_fold]
  calc (fold partials).map get?
      = (fold (shares.filterMap fold)).map get? := map_get?_fold_perm ordered
    _ = (fold shares.flatten).map get? := by rw [fold_shares]
    _ = (fold counts).map get? := map_get?_fold_perm dealt

/-- The counts of three files: one has a count of zero, and one has none at all. -/
def threeFiles : List Counts := [.ofEntries [("a", 0)], .ofEntries [("b", 2), ("a", -1)], .empty]

theorem every_reduction_sums_threeFiles :
    reduce threeFiles = fold threeFiles ∧
    fold threeFiles = some (.ofEntries [("a", -1), ("b", 2)]) ∧
    IsSum threeFiles (.ofEntries [("a", -1), ("b", 2)]) ∧
    (reduce [.ofEntries [("b", 2), ("a", -1)], .empty]).map get? = (fold threeFiles).map get? := by
  have folded : fold threeFiles = some (.ofEntries [("a", -1), ("b", 2)]) := by decide
  obtain ⟨same, -, isSum, shared⟩ := every_reduction_sums threeFiles
  -- the last file goes to the first worker, the second gets nothing, and the third the others
  have dealt := shared [[.empty], [], [.ofEntries [("b", 2), ("a", -1)], .ofEntries [("a", 0)]]]
    [.ofEntries [("b", 2), ("a", -1)], .empty] (by decide) (by decide)
  exact ⟨same, folded, isSum _ folded, dealt⟩

end Counts

end SyntaxTally
