import Mathlib.Data.List.Nodup
import Mathlib.Data.List.Sort
import Mathlib.Data.String.Basic
import SyntaxTally.Walk.Expand

/-!
# The tree of a disk

As the items of a disk form a tree, the names in a directory are those of the items in it, each once and in
increasing order, and what lies above an item is a directory.
-/
namespace SyntaxTally.Files.Disk

variable {disk : Disk} {place : Place} {name : String} {item : Item}

theorem mem_of_item? (found : disk.item? (place ++ [name]) = some item) :
    (place ++ [name], item) ∈ disk.items :=
  mem_of_itemIn (by simp) found

theorem exists_item?_of_mem (listed : (place ++ [name], item) ∈ disk.items) :
    ∃ held, disk.item? (place ++ [name]) = some held := by
  rw [item?, itemIn_of_ne_nil (by simp)]
  cases first : disk.items.find? (·.1 = place ++ [name]) with
  | none =>
    have missed := List.find?_eq_none.mp first _ listed
    simp at missed
  | some entry => exact ⟨entry.2, rfl⟩

/-! ### What a path names -/

theorem lookup_eq_ok {path : Path} (found : disk.lookup path = .ok (place, item)) :
    disk.placeOf true path = .ok place ∧ disk.item? place = some item := by
  obtain ⟨reached, leads, held⟩ : ∃ reached, disk.placeOf true path = .ok reached ∧
      disk.present reached = .ok (place, item) := by
    cases leads : disk.placeOf true path with
    | error fault => simp [lookup, leads, bind, Except.bind] at found
    | ok reached => exact ⟨reached, rfl, by simpa [lookup, leads, bind, Except.bind] using found⟩
  unfold present at held
  split at held
  · cases held
  · cases held
    exact ⟨leads, ‹_›⟩

theorem follow_of_placeOf {path : Path} (leads : disk.placeOf true path = .ok place) :
    disk.follow true mostLinks (if path.isAbsolute then [] else disk.here) path.parts = .ok place := by
  unfold placeOf at leads
  split at leads
  · cases leads
  split at leads
  · cases leads
  split at leads
  · cases leads
  · exact leads

/-! ### Names in a directory -/

/-- The name of an entry that lies directly in a directory. -/
def nameIn? (place entry : Place) : Option String :=
  match entry.getLast? with
  | some name => if entry.dropLast = place then some name else none
  | none => none

theorem nameIn?_eq_some {entry : Place} : nameIn? place entry = some name ↔ entry = place ++ [name] := by
  constructor
  · intro given
    unfold nameIn? at given
    split at given
    next last ends =>
      split at given
      next inside =>
        obtain rfl : last = name := by simpa using given
        rw [← inside, List.dropLast_append_getLast? last ends]
      next => cases given
    next => cases given
  · rintro rfl
    simp [nameIn?]

theorem namesIn_eq (disk : Disk) (place : Place) :
    disk.namesIn place = ((disk.items.map (·.1)).filterMap (nameIn? place)).insertionSort (· ≤ ·) := by
  have inserts : insertName = List.orderedInsert (· ≤ ·) := by
    funext name others
    induction others with
    | nil => rfl
    | cons other rest ih => rw [insertName, List.orderedInsert, ih]
  rw [List.filterMap_map, List.insertionSort, ← inserts]
  rfl

theorem mem_namesIn : name ∈ disk.namesIn place ↔ ∃ item, (place ++ [name], item) ∈ disk.items := by
  simp [namesIn_eq, nameIn?_eq_some]

theorem mem_namesIn_iff_item? : name ∈ disk.namesIn place ↔ (disk.item? (place ++ [name])).isSome := by
  rw [mem_namesIn, Option.isSome_iff_exists]
  exact ⟨fun ⟨_, listed⟩ => exists_item?_of_mem listed, fun ⟨held, found⟩ => ⟨held, mem_of_item? found⟩⟩

theorem nodup_namesIn (disk : Disk) (place : Place) : (disk.namesIn place).Nodup := by
  rw [namesIn_eq, (List.perm_insertionSort _ _).nodup_iff]
  apply disk.tree.distinct.filterMap
  intro left right name ofLeft ofRight
  rw [nameIn?_eq_some.mp ofLeft, nameIn?_eq_some.mp ofRight]

theorem pairwise_namesIn (disk : Disk) (place : Place) : (disk.namesIn place).Pairwise (· < ·) := by
  have sorted : (disk.namesIn place).Pairwise (· ≤ ·) := by
    rw [namesIn_eq]
    exact List.pairwise_insertionSort (· ≤ ·) _
  exact (sorted.and (disk.nodup_namesIn place)).imp fun ⟨below, different⟩ => lt_of_le_of_ne below different

/-! ### Above an item -/

theorem named_of_item? (found : disk.item? place = some item) : ∀ name ∈ place, IsName name :=
  disk.tree.named_of_itemIn found

theorem isName_of_item? (found : disk.item? (place ++ [name]) = some item) : IsName name :=
  named_of_item? found name (by simp)

theorem directory_above (found : disk.item? (place ++ [name]) = some item) : disk.item? place = some .directory := by
  have above := disk.tree.rooted _ (mem_of_item? found)
  rwa [List.dropLast_concat] at above

theorem directory_dropLast (isDir : disk.item? place = some .directory) :
    disk.item? place.dropLast = some .directory := by
  rcases place.eq_nil_or_concat with rfl | ⟨above, last, rfl⟩
  · rfl
  · rw [List.concat_eq_append] at isDir ⊢
    rw [List.dropLast_concat]
    exact directory_above isDir

theorem directory_of_append {parts : List String} (isDir : disk.item? (place ++ parts) = some .directory) :
    disk.item? place = some .directory := by
  induction parts generalizing place with
  | nil => rwa [List.append_nil] at isDir
  | cons name parts ih => exact directory_above (ih (by rwa [List.append_assoc]))

end SyntaxTally.Files.Disk
