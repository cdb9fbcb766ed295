import SyntaxTally.Proofs.Files.Tree

/-!
# Writing a file

A file is put in a directory, where nothing or another file lay. A path leads to the same place as before; only a
path through the file fails otherwise than it did when nothing lay there (`follow_put`).
-/
namespace SyntaxTally.Files.Disk

variable {disk : Disk} {file home place goal : Place} {name : String} {item : Item} {bytes : List UInt8}

theorem item?_put (holds : Holds disk.items file) (item : Item) (place : Place) :
    (disk.put file item).item? place = if place = file then some item else disk.item? place := by
  rw [put, dif_pos holds]
  exact itemIn_putItem holds.ne_nil item place

theorem here_put (disk : Disk) (file : Place) (item : Item) : (disk.put file item).here = disk.here := by
  unfold put
  split <;> rfl

theorem locked_put (disk : Disk) (file : Place) (item : Item) : (disk.put file item).locked = disk.locked := by
  unfold put
  split <;> rfl

theorem sealed_put (disk : Disk) (file : Place) (item : Item) : (disk.put file item).sealed = disk.sealed := by
  unfold put
  split <;> rfl

theorem length_items_put (disk : Disk) (file : Place) (item : Item) :
    (disk.put file item).items.length = disk.items.length ∨
      (disk.put file item).items.length = disk.items.length + 1 := by
  unfold put
  split
  · unfold putItem
    split <;> simp
  · exact .inl rfl

/-- A file may be written there: nothing but another file lies in its place. -/
def Free (disk : Disk) (file : Place) : Prop := ∀ item, disk.item? file = some item → ∃ bytes, item = .file bytes

theorem Free.not_directory (free : disk.Free file) (isDir : disk.item? place = some .directory) : place ≠ file := by
  rintro rfl
  obtain ⟨bytes, same⟩ := free _ isDir
  cases same

theorem Free.holds (free : disk.Free (home ++ [name])) (isDir : disk.item? home = some .directory)
    (isName : IsName name) : Holds disk.items (home ++ [name]) where
  proper := by simpa using isName
  inside := by rwa [List.dropLast_concat]
  vacant := fun taken => free.not_directory taken rfl

/-! ### Where paths lead -/

/-- Where a path leads once a file is written. -/
def LeadsAlike (disk : Disk) (file : Place) (before after : Except Fault Place) : Prop :=
  after = before ∨ disk.item? file = none ∧ before = .error .missing ∧ after = .error .notDirectory

section

variable (holds : Holds disk.items file) (free : disk.Free file)

include holds free

theorem advance_put {onLink onLinkAfter : Place → List String → Except Fault Place}
    (alike : ∀ place parts, LeadsAlike disk file (onLink place parts) (onLinkAfter place parts)) (last : Bool)
    (place : Place) (parts : List String) :
    LeadsAlike disk file (disk.advance last onLink place parts)
      ((disk.put file (.file bytes)).advance last onLinkAfter place parts) := by
  induction parts generalizing place with
  | nil => exact .inl rfl
  | cons name rest ih =>
    rw [advance, advance, item?_put holds, sealed_put]
    by_cases own : place = file
    · rw [if_pos own, own]
      cases held : disk.item? file with
      | none => exact .inr ⟨held, rfl, rfl⟩
      | some item =>
        obtain ⟨bytes, rfl⟩ := free item held
        exact .inl rfl
    · rw [if_neg own]
      cases held : disk.item? place with
      | none => exact .inl rfl
      | some item =>
        cases item with
        | file | link | socket => exact .inl rfl
        | directory =>
          dsimp only
          split
          · exact ih place
          split
          · exact .inl rfl
          split
          · exact ih place
          split
          · exact ih place.dropLast
          split
          · exact .inl rfl
          rw [item?_put holds]
          by_cases next : place ++ [name] = file
          · rw [if_pos next]
            have onward := ih (place ++ [name])
            cases child : disk.item? (place ++ [name]) with
            | none => exact onward
            | some item =>
              obtain ⟨bytes, rfl⟩ := free item (next ▸ child)
              exact onward
          · rw [if_neg next]
            cases child : disk.item? (place ++ [name]) with
            | none => exact ih _
            | some item =>
              cases item with
              | file | directory | socket => exact ih _
              | link target =>
                dsimp only
                split
                · exact .inl rfl
                · exact alike _ _

theorem follow_put (bytes : List UInt8) (last : Bool) (links : Nat) (place : Place) (parts : List String) :
    LeadsAlike disk file (disk.follow last links place parts)
      ((disk.put file (.file bytes)).follow last links place parts) := by
  induction links generalizing place parts with
  | zero => exact advance_put holds free (fun _ _ => .inl rfl) last place parts
  | succ links ih => exact advance_put holds free ih last place parts

theorem placeOf_put (bytes : List UInt8) (last : Bool) (path : Path) :
    LeadsAlike disk file (disk.placeOf last path) ((disk.put file (.file bytes)).placeOf last path) := by
  unfold placeOf isBarredHere
  rw [here_put, sealed_put]
  split
  · exact .inl rfl
  split
  · exact .inl rfl
  split
  · exact .inl rfl
  exact follow_put holds free bytes last mostLinks _ path.parts

theorem placeOf_put_eq_ok {last : Bool} {path : Path} :
    (disk.put file (.file bytes)).placeOf last path = .ok goal ↔ disk.placeOf last path = .ok goal := by
  rcases placeOf_put holds free bytes last path with same | ⟨-, before, after⟩
  · rw [same]
  · rw [before, after]
    simp

end

end SyntaxTally.Files.Disk
