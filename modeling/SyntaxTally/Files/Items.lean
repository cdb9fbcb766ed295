/-!
# Items of a file system

What lies at each real place: the components from the top, with no link on the way. The items of a file system
form a tree, and they still do when an item is put into a directory.
-/
namespace SyntaxTally.Files

abbrev Place := List String

/-- What can lie at a place. Named pipes are left out: what reading one gives is no matter of the disk, as
opening it waits for another program to write. -/
inductive Item where
  | file (bytes : List UInt8)
  | directory
  | link (target : String)
  | socket
  deriving DecidableEq

abbrev Items := List (Place × Item)

/-- What lies at a place. The top is always a directory. -/
def itemIn (items : Items) : Place → Option Item
  | [] => some .directory
  | place => (items.find? (·.1 = place)).map (·.2)

def longestName : Nat := 255

/-- A name that an item in a directory can have. -/
def IsName (name : String) : Prop :=
  name ≠ "" ∧ name ≠ "." ∧ name ≠ ".." ∧ '/' ∉ name.toList ∧ '\x00' ∉ name.toList ∧
    name.utf8ByteSize ≤ longestName

instance (name : String) : Decidable (IsName name) := inferInstanceAs (Decidable (_ ∧ _))

/-- No place is taken twice, every name is a proper one, and every item lies in a directory. Links may lead
anywhere. -/
structure IsTree (items : Items) : Prop where
  distinct : (items.map (·.1)).Nodup
  named : ∀ entry ∈ items, ∀ name ∈ entry.1, IsName name
  rooted : ∀ entry ∈ items, itemIn items entry.1.dropLast = some .directory

instance (items : Items) : Decidable (IsTree items) :=
  decidable_of_iff
    ((items.map (·.1)).Nodup ∧ (∀ entry ∈ items, ∀ name ∈ entry.1, IsName name) ∧
      ∀ entry ∈ items, itemIn items entry.1.dropLast = some .directory)
    ⟨fun ⟨distinct, named, rooted⟩ => ⟨distinct, named, rooted⟩, fun tree => ⟨tree.1, tree.2, tree.3⟩⟩

theorem IsTree.nil : IsTree [] := by decide

variable {items : Items} {place other : Place} {name : String} {item held : Item}

theorem itemIn_of_ne_nil (inside : place ≠ []) : itemIn items place = (items.find? (·.1 = place)).map (·.2) := by
  cases place with
  | nil => exact absurd rfl inside
  | cons => rfl

theorem mem_of_itemIn (inside : place ≠ []) (found : itemIn items place = some item) : (place, item) ∈ items := by
  rw [itemIn_of_ne_nil inside] at found
  obtain ⟨⟨other, held⟩, first, same⟩ := Option.map_eq_some_iff.mp found
  have there : other = place := by simpa using List.find?_some first
  subst there
  obtain rfl : held = item := same
  exact List.mem_of_find?_eq_some first

theorem IsTree.named_of_itemIn (tree : IsTree items) (found : itemIn items place = some item) :
    ∀ name ∈ place, IsName name := by
  by_cases top : place = []
  · simp [top]
  · exact tree.named _ (mem_of_itemIn top found)

/-! ### Putting an item -/

/-- The items with one put at a place, in place of the one that lies there. -/
def putItem (items : Items) (place : Place) (item : Item) : Items :=
  if items.any (·.1 = place) then items.map fun entry => if entry.1 = place then (place, item) else entry
  else items ++ [(place, item)]

/-- An item can be put there: under a proper name in a directory, and not in place of a directory. -/
structure Holds (items : Items) (place : Place) : Prop where
  proper : ∀ name ∈ place.getLast?, IsName name
  inside : itemIn items place.dropLast = some .directory
  vacant : itemIn items place ≠ some .directory

instance (items : Items) (place : Place) : Decidable (Holds items place) :=
  decidable_of_iff
    ((∀ name ∈ place.getLast?, IsName name) ∧ itemIn items place.dropLast = some .directory ∧
      itemIn items place ≠ some .directory)
    ⟨fun ⟨proper, inside, vacant⟩ => ⟨proper, inside, vacant⟩, fun holds => ⟨holds.1, holds.2, holds.3⟩⟩

theorem Holds.ne_nil (holds : Holds items place) : place ≠ [] := by
  rintro rfl
  exact holds.vacant rfl

theorem itemIn_putItem (inside : place ≠ []) (item : Item) (other : Place) :
    itemIn (putItem items place item) other = if other = place then some item else itemIn items other := by
  by_cases top : other = []
  · rw [top, if_neg inside.symm, itemIn, itemIn]
  rw [itemIn_of_ne_nil top, itemIn_of_ne_nil top]
  unfold putItem
  split
  next taken =>
    have kept : (fun entry : Place × Item => decide (entry.1 = other)) ∘
        (fun entry => if entry.1 = place then (place, item) else entry) = fun entry => decide (entry.1 = other) := by
      funext entry
      by_cases own : entry.1 = place <;> simp [own]
    rw [List.find?_map, kept, Option.map_map]
    cases first : items.find? (·.1 = other) with
    | none =>
      have missed := List.find?_eq_none.mp first
      obtain ⟨entry, listed, own⟩ := List.any_eq_true.mp taken
      have different : other ≠ place := by
        rintro rfl
        exact missed entry listed own
      rw [if_neg different]
      rfl
    | some entry =>
      obtain rfl : entry.1 = other := by simpa using List.find?_some first
      by_cases own : entry.1 = place <;> simp [own]
  next free =>
    have missed : ∀ entry ∈ items, entry.1 ≠ place := fun entry listed own =>
      free (List.any_eq_true.mpr ⟨entry, listed, by simpa using own⟩)
    by_cases own : other = place
    · have none : items.find? (·.1 = other) = none :=
        List.find?_eq_none.mpr fun entry listed => by simpa [own] using missed entry listed
      rw [if_pos own, List.find?_append, none]
      simp [own]
    · rw [if_neg own, List.find?_append]
      cases items.find? (·.1 = other) <;> simp [Ne.symm own]

theorem mem_putItem {entry : Place × Item} (listed : entry ∈ putItem items place item) :
    entry.1 = place ∨ entry ∈ items := by
  unfold putItem at listed
  split at listed
  · obtain ⟨old, present, rfl⟩ := List.mem_map.mp listed
    by_cases own : old.1 = place
    · exact .inl (by simp [own])
    · exact .inr (by simpa [own] using present)
  · rcases List.mem_append.mp listed with present | new
    · exact .inr present
    · exact .inl (by rw [List.mem_singleton.mp new])

theorem IsTree.putItem (tree : IsTree items) (holds : Holds items place) (item : Item) :
    IsTree (putItem items place item) where
  distinct := by
    unfold Files.putItem
    split
    · have same : (fun entry : Place × Item => entry.1) ∘
          (fun entry => if entry.1 = place then (place, item) else entry) = fun entry => entry.1 := by
        funext entry
        by_cases own : entry.1 = place <;> simp [own]
      rw [List.map_map, same]
      exact tree.distinct
    · rename_i none
      rw [List.map_append, List.nodup_append]
      refine ⟨tree.distinct, by simp, ?_⟩
      rintro taken listed other own rfl
      obtain ⟨entry, present, rfl⟩ := List.mem_map.mp listed
      exact none (List.any_eq_true.mpr ⟨entry, present, by simpa using own⟩)
  named := by
    intro entry listed name member
    rcases mem_putItem listed with own | present
    · rw [own, ← List.dropLast_concat_getLast holds.ne_nil] at member
      rcases List.mem_append.mp member with above | last
      · exact tree.named_of_itemIn holds.inside name above
      · rw [List.mem_singleton.mp last]
        exact holds.proper _ (List.getLast?_eq_some_getLast holds.ne_nil)
    · exact tree.named entry present name member
  rooted := by
    intro entry listed
    have above : itemIn items entry.1.dropLast = some .directory := by
      rcases mem_putItem listed with own | present
      · rw [own]
        exact holds.inside
      · exact tree.rooted entry present
    have elsewhere : entry.1.dropLast ≠ place := by
      intro same
      exact holds.vacant (same ▸ above)
    rw [itemIn_putItem holds.ne_nil, if_neg elsewhere]
    exact above

end SyntaxTally.Files
