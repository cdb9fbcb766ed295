import Mathlib.Data.List.Nodup
import SyntaxTally.Proofs.Files.Way

/-!
# Real paths

Replacing links takes the way that the components of a path lead, with a path free of links for the place that is
reached (`Denotes`). It meets no link within itself (`Waiting`) and no path that is too long to be looked at
(`Roomy`). So a path that names something has the absolute path of its place as its real path (`realPath_of_lookup`).
-/
namespace SyntaxTally.Files.Disk

variable {disk : Disk} {place goal between : Place} {name target : String} {parts rest more : List String}
  {item : Item} {path free : Path} {links count other ups : Nat}

theorem IsStep.not_blank (step : IsStep name) : ¬ (name = "" ∨ name = ".") := by
  rintro (blank | blank)
  · exact step.1 blank
  · exact step.2.1 blank

theorem IsStep.count_up_cons (step : IsStep name) (rest : List String) :
    (name :: rest).count ".." = rest.count ".." :=
  List.count_cons_of_ne step.2.2.1

/-! ### Directories that may be searched -/

/-- Every directory may be searched. -/
def AllOpen (disk : Disk) : Prop := ∀ place, disk.item? place = some .directory → place ∉ disk.sealed

theorem AllOpen.not_sealed (allOpen : disk.AllOpen) (isDir : disk.item? place = some .directory) :
    disk.sealed.contains place = false := by
  simpa using allOpen place isDir

theorem AllOpen.not_barred (allOpen : disk.AllOpen) (isDir : disk.item? (place ++ parts) = some .directory) :
    disk.isBarred place parts = false := by
  induction parts generalizing place with
  | nil => rfl
  | cons name parts ih =>
    have below : disk.item? (place ++ [name] ++ parts) = some .directory := by rwa [List.append_assoc]
    rw [isBarred, allOpen.not_sealed (directory_of_append isDir), ih below]
    rfl

/-! ### Paths without links -/

/-- The path has no links and names the place, from the top or from the working directory. It goes up so often at
most. -/
inductive Denotes (disk : Disk) (ups : Nat) : Path → Place → Prop
  | fromTop (place : Place) : Denotes disk ups ⟨1, place⟩ place
  | fromHere (climbed : Nat) (below : List String) (few : climbed ≤ ups)
      (isDir : disk.item? disk.here = some .directory) :
      Denotes disk ups ⟨0, List.replicate climbed ".." ++ below⟩ (disk.here.take (disk.here.length - climbed) ++ below)

theorem stepUp_append (slashes : Nat) (parts : List String) (below : name ≠ "..") :
    stepUp ⟨slashes, parts ++ [name]⟩ = ⟨slashes, parts⟩ := by
  simp [stepUp, Path.parent]

theorem advance_climb {last : Bool} {onLink : Place → List String → Except Fault Place} (allOpen : disk.AllOpen)
    (isDir : disk.item? place = some .directory) (climbed : Nat) :
    disk.advance last onLink place (List.replicate climbed ".." ++ rest) =
      disk.advance last onLink (place.take (place.length - climbed)) rest := by
  induction climbed generalizing place with
  | zero => simp
  | succ climbed ih =>
    rw [List.replicate_succ, List.cons_append, advance, isDir]
    simp only [String.reduceEq, allOpen.not_sealed isDir, Bool.false_eq_true, if_false, if_true]
    rw [ih (directory_dropLast isDir), List.dropLast_eq_take, List.take_take, List.length_take]
    congr 2
    omega

namespace Denotes

theorem mono (denotes : disk.Denotes ups free place) (more : ups ≤ other) : disk.Denotes other free place := by
  cases denotes with
  | fromTop => exact .fromTop place
  | fromHere climbed below few isHere => exact .fromHere climbed below (few.trans more) isHere

theorem child (denotes : disk.Denotes ups free place) (name : String) :
    disk.Denotes ups (free.child name) (place ++ [name]) := by
  cases denotes with
  | fromTop => exact .fromTop _
  | fromHere climbed below few isHere =>
    rw [Path.child, List.append_assoc, List.append_assoc]
    exact .fromHere climbed (below ++ [name]) few isHere

theorem stepUp (denotes : disk.Denotes ups free place)
    (isDir : disk.item? place = some .directory) : disk.Denotes (ups + 1) (stepUp free) place.dropLast := by
  have named := named_of_item? isDir
  cases denotes with
  | fromTop =>
    rcases place.eq_nil_or_concat with rfl | ⟨above, last, rfl⟩
    · exact .fromTop []
    · rw [List.concat_eq_append] at named ⊢
      rw [stepUp_append 1 above (named last (by simp)).2.2.1, List.dropLast_concat]
      exact .fromTop above
  | fromHere climbed below few isHere =>
    rcases below.eq_nil_or_concat with rfl | ⟨above, last, rfl⟩
    · have higher : Disk.stepUp ⟨0, List.replicate climbed ".." ++ []⟩ =
          ⟨0, List.replicate (climbed + 1) ".." ++ []⟩ := by
        cases climbed <;> simp [Disk.stepUp, Path.child, Path.isAbsolute, List.replicate_succ']
      have shorter : (disk.here.take (disk.here.length - climbed) ++ []).dropLast =
          disk.here.take (disk.here.length - (climbed + 1)) ++ [] := by
        rw [List.append_nil, List.append_nil, List.dropLast_eq_take, List.take_take, List.length_take]
        congr 1
        omega
      rw [higher, shorter]
      exact .fromHere (climbed + 1) [] (by omega) isHere
    · rw [List.concat_eq_append] at named ⊢
      rw [← List.append_assoc, stepUp_append 0 _ (named last (by simp)).2.2.1, ← List.append_assoc,
        List.dropLast_concat]
      exact .fromHere climbed above (by omega) isHere

theorem advance_child {onLink : Place → List String → Except Fault Place} (denotes : disk.Denotes ups free place)
    (allOpen : disk.AllOpen) (isDir : disk.item? place = some .directory) (step : IsStep name) :
    disk.advance false onLink (if free.isAbsolute then [] else disk.here) (free.parts ++ [name]) =
      .ok (place ++ [name]) := by
  have own : disk.advance false onLink place [name] = .ok (place ++ [name]) := by
    obtain ⟨notEmpty, notDot, notUp, short⟩ := step
    rw [advance, isDir]
    simp only [notEmpty, notDot, notUp, Nat.not_lt.mpr short, allOpen.not_sealed isDir, Bool.false_eq_true, if_false]
    split <;> simp [advance]
  have down : ∀ above below, above ++ below = place →
      disk.advance false onLink above (below ++ [name]) = .ok (place ++ [name]) := by
    rintro above below rfl
    rw [advance_directories above isDir, allOpen.not_barred isDir]
    exact own
  cases denotes with
  | fromTop => exact down [] place rfl
  | fromHere climbed below few isHere =>
    show disk.advance false onLink disk.here (List.replicate climbed ".." ++ below ++ [name]) = _
    rw [List.append_assoc, advance_climb allOpen isHere]
    exact down _ below rfl

theorem mem_parts (denotes : disk.Denotes ups free place) (member : name ∈ free.parts) :
    name = ".." ∨ name ∈ place := by
  cases denotes with
  | fromTop => exact .inr member
  | fromHere climbed below few isHere =>
    rcases List.mem_append.mp member with above | inside
    · exact .inl (List.eq_of_mem_replicate above)
    · exact .inr (List.mem_append_right _ inside)

end Denotes

/-- The path from which the target of a link goes on. -/
theorem Denotes.startOf (denotes : disk.Denotes ups free place) (target : String) :
    disk.Denotes ups (if (Path.ofString target).isAbsolute then ⟨1, []⟩ else free) (startOf place target) := by
  rw [isAbsolute_ofString, Disk.startOf]
  split
  · exact .fromTop []
  · exact denotes

/-! ### Sizes -/

/-- The size of the components with a slash before each. -/
def width : List String → Nat
  | [] => 0
  | part :: rest => part.utf8ByteSize + 1 + width rest

theorem width_append (parts more : List String) : width (parts ++ more) = width parts + width more := by
  induction parts with
  | nil => simp [width]
  | cons part parts ih =>
    rw [List.cons_append, width, width, ih]
    omega

theorem width_climb (climbed : Nat) : width (List.replicate climbed "..") = 3 * climbed := by
  induction climbed with
  | zero => rfl
  | succ climbed ih =>
    have two : "..".utf8ByteSize = 2 := by decide
    rw [List.replicate_succ, width, ih, two]
    omega

theorem utf8ByteSize_intercalate (some : parts ≠ []) : ("/".intercalate parts).utf8ByteSize + 1 = width parts := by
  have one : "/".utf8ByteSize = 1 := by decide
  induction parts with
  | nil => exact absurd rfl some
  | cons part parts ih =>
    cases parts with
    | nil => simp [width]
    | cons next parts =>
      have rest := ih (by simp)
      rw [String.intercalate_cons_cons, String.utf8ByteSize_append, String.utf8ByteSize_append, one, width]
      omega

theorem utf8ByteSize_toString (path : Path) (some : path.parts ≠ []) :
    path.toString.utf8ByteSize + 1 = path.slashes + width path.parts := by
  have lead : ∀ slashes, (String.ofList (List.replicate slashes '/')).utf8ByteSize = slashes := by
    intro slashes
    induction slashes with
    | zero => rfl
    | succ slashes ih =>
      have one : '/'.utf8Size = 1 := by decide
      rw [List.replicate_succ, String.ofList_cons, String.utf8ByteSize_append, String.utf8ByteSize_singleton, one, ih]
      omega
  rw [Path.toString, if_neg (by simp [some]), String.utf8ByteSize_append, lead, Nat.add_assoc,
    utf8ByteSize_intercalate some]

/-- On the way from the working directory a path is longer than the absolute one by what goes up at most. -/
theorem Denotes.size_child (denotes : disk.Denotes ups free place) (name : String) :
    (free.child name).toString.utf8ByteSize ≤ 3 * ups + (Path.toString ⟨1, place ++ [name]⟩).utf8ByteSize := by
  cases denotes with
  | fromTop => exact Nat.le_add_left _ _
  | fromHere climbed below few isHere =>
    have relative := utf8ByteSize_toString ⟨0, List.replicate climbed ".." ++ below ++ [name]⟩ (by simp)
    have absolute := utf8ByteSize_toString
      ⟨1, disk.here.take (disk.here.length - climbed) ++ below ++ [name]⟩ (by simp)
    rw [width_append, width_append, width_climb] at relative
    rw [width_append, width_append] at absolute
    dsimp only at relative absolute
    show (Path.toString ⟨0, List.replicate climbed ".." ++ below ++ [name]⟩).utf8ByteSize ≤ _
    omega

/-! ### Links that are open -/

/-- The place is a link whose target leads somewhere, through so many links. -/
def Opens (disk : Disk) (count : Nat) (place : Place) : Prop :=
  ∃ target goal, disk.item? place = some (.link target) ∧
    disk.Leads count (startOf place.dropLast target) (Path.ofString target).parts goal

theorem Opens.unique (opens : disk.Opens count place) (also : disk.Opens other place) : count = other := by
  obtain ⟨target, goal, found, leads⟩ := opens
  obtain ⟨other, elsewhere, alsoFound, alsoLeads⟩ := also
  cases found.symm.trans alsoFound
  exact (leads.unique alsoLeads).1

/-- The links that are being followed. Each leads through more links than are still to come, so that no link is
met within itself. -/
structure Waiting (disk : Disk) (pending : List Path) (opened : List Place) (count : Nat) : Prop where
  distinct : opened.Nodup
  named : ∀ path ∈ pending, ∃ place ∈ opened, disk.placeOf false path = .ok place
  larger : ∀ place ∈ opened, ∃ most, count ≤ most ∧ disk.Opens most place

namespace Waiting

variable {pending : List Path} {opened : List Place}

theorem mono (waiting : disk.Waiting pending opened count) (fewer : other ≤ count) :
    disk.Waiting pending opened other where
  distinct := waiting.distinct
  named := waiting.named
  larger := by
    intro place member
    obtain ⟨most, enough, opens⟩ := waiting.larger place member
    exact ⟨most, fewer.trans enough, opens⟩

theorem not_opened (waiting : disk.Waiting pending opened count) (opens : disk.Opens other place)
    (fewer : other < count) : place ∉ opened := by
  intro member
  obtain ⟨most, enough, also⟩ := waiting.larger place member
  have same := opens.unique also
  omega

theorem not_pending (waiting : disk.Waiting pending opened count) (opens : disk.Opens other place)
    (fewer : other < count) (leads : disk.placeOf false path = .ok place) : path ∉ pending := by
  intro member
  obtain ⟨own, isOpen, also⟩ := waiting.named path member
  cases leads.symm.trans also
  exact waiting.not_opened opens fewer isOpen

theorem cons (waiting : disk.Waiting pending opened count) (opens : disk.Opens other place)
    (fewer : other < count) (leads : disk.placeOf false path = .ok place) :
    disk.Waiting (path :: pending) (place :: opened) other where
  distinct := List.nodup_cons.mpr ⟨waiting.not_opened opens fewer, waiting.distinct⟩
  named := by
    intro later member
    rcases List.mem_cons.mp member with rfl | earlier
    · exact ⟨place, List.mem_cons_self, leads⟩
    · obtain ⟨own, isOpen, also⟩ := waiting.named later earlier
      exact ⟨own, List.mem_cons_of_mem _ isOpen, also⟩
  larger := by
    intro later member
    rcases List.mem_cons.mp member with rfl | earlier
    · exact ⟨other, Nat.le_refl _, opens⟩
    · exact (waiting.mono (Nat.le_of_lt fewer)).larger later earlier

theorem length_le (waiting : disk.Waiting pending opened count) : opened.length ≤ disk.items.length := by
  have onDisk : opened ⊆ disk.items.map (·.1) := by
    intro place member
    obtain ⟨most, -, target, goal, found, -⟩ := waiting.larger place member
    rcases place.eq_nil_or_concat with rfl | ⟨above, last, rfl⟩
    · cases found
    · rw [List.concat_eq_append] at found ⊢
      exact List.mem_map_of_mem (mem_of_item? found)
  simpa using (List.subperm_of_subset waiting.distinct onDisk).length_le

/-- There are not more open links than items, so that the bound on their number is never met. -/
theorem exists_depth {depth : Nat} (waiting : disk.Waiting pending (place :: opened) count)
    (deep : disk.items.length ≤ depth + opened.length) : ∃ less, depth = less + 1 := by
  have most := waiting.length_le
  rw [List.length_cons] at most
  exact ⟨depth - 1, by omega⟩

end Waiting

/-! ### Replacing links -/

/-- All that is on the disk is short enough for a path to be looked at, even where the path and every link on its
way go up `ups` times, and every directory may be searched. -/
structure Roomy (disk : Disk) (ups : Nat) : Prop where
  targets : ∀ entry ∈ disk.items, ∀ target, entry.2 = .link target → (Path.ofString target).parts.count ".." ≤ ups
  fits : ∀ entry ∈ disk.items,
    3 * ((mostLinks + 1) * ups) + (Path.toString ⟨1, entry.1⟩).utf8ByteSize ≤ longestPath
  allOpen : disk.AllOpen

theorem placeOf_eq {last : Bool} (clean : ∀ name ∈ path.parts, '\x00' ∉ name.toList)
    (away : path ≠ ⟨0, []⟩) :
    disk.placeOf last path =
      if longestPath < path.toString.utf8ByteSize then .error .nameTooLong
      else disk.follow last mostLinks (if path.isAbsolute then [] else disk.here) path.parts := by
  have noNull : path.hasNull = false := by
    rw [Path.hasNull, List.any_eq_false]
    intro name member
    simpa using clean name member
  have elsewhere : disk.isBarredHere path = false := by simp [isBarredHere, away]
  rw [placeOf, noNull, elsewhere, if_neg Bool.false_ne_true, if_neg Bool.false_ne_true]

theorem Denotes.placeOf_child {used : Nat} (denotes : disk.Denotes used free place) (allOpen : disk.AllOpen)
    (isDir : disk.item? place = some .directory) (step : IsStep name)
    (found : disk.item? (place ++ [name]) = some item) :
    disk.placeOf false (free.child name) =
      if longestPath < (free.child name).toString.utf8ByteSize then .error .nameTooLong else .ok (place ++ [name]) := by
  have clean : ∀ part ∈ (free.child name).parts, '\x00' ∉ part.toList := by
    intro part member
    rcases (denotes.child name).mem_parts member with rfl | inside
    · decide
    · exact (named_of_item? found part inside).2.2.2.2.1
  rw [placeOf_eq clean (by simp [Path.child])]
  split
  · rfl
  · exact denotes.advance_child allOpen isDir step

theorem Denotes.placeOf_link {used : Nat} (denotes : disk.Denotes used free place)
    (roomy : disk.Roomy ups) (room : used ≤ (mostLinks + 1) * ups) (step : IsStep name)
    (link : disk.item? (place ++ [name]) = some (.link target)) :
    disk.placeOf false (free.child name) = .ok (place ++ [name]) := by
  have short : ¬ longestPath < (free.child name).toString.utf8ByteSize := by
    have size := denotes.size_child name
    have fits := roomy.fits _ (mem_of_item? link)
    dsimp only at fits
    omega
  rw [denotes.placeOf_child roomy.allOpen (directory_above link) step link, if_neg short]

section Unlink

variable {pending : List Path} {onLink : List Path → Path → Path → Except Fault (Path × Bool)}

theorem unlink_blank (blank : name = "" ∨ name = ".") :
    disk.unlink pending onLink free (name :: rest) = disk.unlink pending onLink free rest := by
  rw [unlink, if_pos (by simpa using blank)]

theorem unlink_down (step : IsStep name)
    (led : disk.placeOf false (free.child name) = .ok place ∨
      disk.placeOf false (free.child name) = .error .nameTooLong)
    (plain : ∀ target, disk.item? place ≠ some (.link target)) :
    disk.unlink pending onLink free (name :: rest) = disk.unlink pending onLink (free.child name) rest := by
  rw [unlink, if_neg (by simpa using step.not_blank), if_neg step.2.2.1]
  dsimp only
  rcases led with led | led
  · rw [led]
    dsimp only
    split
    · exact absurd ‹_› (plain _)
    · rfl
  · rw [led]

theorem unlink_link {real : Path} (step : IsStep name) (led : disk.placeOf false (free.child name) = .ok place)
    (found : disk.item? place = some (.link target)) (fresh : free.child name ∉ pending)
    (inner : onLink (free.child name :: pending) free (Path.ofString target) = .ok (real, true)) :
    disk.unlink pending onLink free (name :: rest) = disk.unlink pending onLink real rest := by
  rw [unlink, if_neg (by simpa using step.not_blank), if_neg step.2.2.1]
  dsimp only
  rw [led]
  dsimp only
  rw [found]
  dsimp only
  rw [if_neg (by simpa using fresh), inner]

end Unlink

/-- Where the components lead, the path without links leads too. -/
theorem unlink_of_leads (roomy : disk.Roomy ups) (leads : disk.Leads count place parts goal)
    (found : disk.item? goal = some item) {free : Path} {used depth : Nat} {pending : List Path} {opened : List Place}
    (denotes : disk.Denotes used free place)
    (room : used + parts.count ".." + count * ups ≤ (mostLinks + 1) * ups)
    (waiting : disk.Waiting pending opened count) (deep : disk.items.length ≤ depth + opened.length) :
    ∃ real, disk.unlink pending (disk.unlinked depth) free parts = .ok (real, true) ∧
      disk.Denotes (used + parts.count ".." + count * ups) real goal := by
  induction leads generalizing free used depth pending opened item with
  | stay => exact ⟨free, rfl, denotes.mono (by omega)⟩
  | @step count place next goal name rest steps onward ih =>
    cases steps with
    | skip empty =>
      rw [List.count_cons_of_ne (by simp [empty])] at room ⊢
      rw [unlink_blank (.inl empty)]
      exact ih found denotes room waiting deep
    | dot isDot =>
      rw [List.count_cons_of_ne (by simp [isDot])] at room ⊢
      rw [unlink_blank (.inr isDot)]
      exact ih found denotes room waiting deep
    | up isUp isOpen =>
      subst isUp
      rw [List.count_cons_self] at room ⊢
      rw [unlink, if_neg (by simp), if_pos rfl]
      obtain ⟨real, unlinked, denoted⟩ := ih found (denotes.stepUp isOpen.isDir) (by omega) waiting deep
      exact ⟨real, unlinked, denoted.mono (by omega)⟩
    | down step isOpen plain =>
      rw [step.count_up_cons] at room ⊢
      obtain ⟨held, there⟩ := onward.begins found
      -- a path that is too long cannot be looked at, and then the component stays as it is
      have led := denotes.placeOf_child roomy.allOpen isOpen.isDir step there
      rw [unlink_down step (by rw [led]; split <;> simp) plain]
      exact ih found (denotes.child _) room waiting deep
  | @link within after place between goal name target rest linked inner onward ihInner ihOnward =>
    obtain ⟨step, -, link⟩ := linked
    rw [step.count_up_cons] at room ⊢
    have few : (Path.ofString target).parts.count ".." ≤ ups := roomy.targets _ (mem_of_item? link) target rfl
    have total : (within + after + 1) * ups = within * ups + after * ups + ups := by
      rw [Nat.add_mul, Nat.add_mul, Nat.one_mul]
    have led := denotes.placeOf_link roomy (by omega) step link
    have opens : disk.Opens within (place ++ [name]) := ⟨target, between, link, by rwa [List.dropLast_concat]⟩
    have below := waiting.cons opens (by omega) led
    obtain ⟨depth, rfl⟩ := below.exists_depth deep
    obtain ⟨held, there⟩ := onward.begins found
    have deeper : disk.items.length ≤ depth + ((place ++ [name]) :: opened).length := by
      rw [List.length_cons]
      omega
    obtain ⟨real, replaced, denotedInner⟩ := ihInner there (denotes.startOf target) (by omega) below deeper
    rw [unlink_link step led link (waiting.not_pending opens (by omega) led) replaced]
    obtain ⟨last, unlinked, denoted⟩ := ihOnward found denotedInner (by omega) (waiting.mono (by omega)) deep
    exact ⟨last, unlinked, denoted.mono (by omega)⟩

/-! ### Real paths -/

theorem normalized_append_names (proper : ∀ name ∈ more, name ≠ "..") :
    normalized (parts ++ more) = normalized parts ++ more := by
  induction more generalizing parts with
  | nil => simp
  | cons name more ih =>
    rw [show parts ++ name :: more = parts ++ [name] ++ more by simp,
      ih fun other member => proper other (List.mem_cons_of_mem _ member)]
    simp [normalized, proper name List.mem_cons_self]

theorem normalized_append_climb (parts : List String) (climbed : Nat) :
    normalized (parts ++ List.replicate climbed "..") =
      (normalized parts).take ((normalized parts).length - climbed) := by
  induction climbed with
  | zero => simp
  | succ climbed ih =>
    have last : normalized (parts ++ List.replicate climbed ".." ++ [".."]) =
        (normalized (parts ++ List.replicate climbed "..")).dropLast := by
      simp [normalized]
    rw [List.replicate_succ', ← List.append_assoc, last, ih, List.dropLast_eq_take, List.take_take, List.length_take]
    congr 1
    omega

theorem Denotes.normalized (denotes : disk.Denotes ups free place)
    (found : disk.item? place = some item) :
    Path.mk (if free.isAbsolute then free.slashes else 1)
      (normalized ((if free.isAbsolute then [] else disk.here) ++ free.parts)) = ⟨1, place⟩ := by
  have proper : ∀ name ∈ place, name ≠ ".." := fun name member => (named_of_item? found name member).2.2.1
  cases denotes with
  | fromTop =>
    show Path.mk 1 (Disk.normalized ([] ++ place)) = _
    rw [normalized_append_names proper]
    rfl
  | fromHere climbed below few isHere =>
    have properHere : ∀ name ∈ disk.here, name ≠ ".." := fun name member =>
      (named_of_item? isHere name member).2.2.1
    have whole : Disk.normalized ([] ++ disk.here) = [] ++ disk.here := normalized_append_names properHere
    rw [List.nil_append] at whole
    show Path.mk 1 (Disk.normalized (disk.here ++ (List.replicate climbed ".." ++ below))) = _
    rw [← List.append_assoc, normalized_append_names fun name member => proper name (List.mem_append_right _ member),
      normalized_append_climb, whole]

theorem lookup_of_place (roomy : disk.Roomy ups) (found : disk.item? place = some item)
    (plain : ∀ target, item ≠ .link target) : disk.lookup ⟨1, place⟩ = .ok (place, item) := by
  have clean : ∀ name ∈ place, '\x00' ∉ name.toList := fun name member =>
    (named_of_item? found name member).2.2.2.2.1
  have short : ¬ longestPath < (Path.toString ⟨1, place⟩).utf8ByteSize := by
    rcases place.eq_nil_or_concat with rfl | ⟨above, last, rfl⟩
    · decide
    · rw [List.concat_eq_append] at found ⊢
      have fits := roomy.fits _ (mem_of_item? found)
      dsimp only at fits
      omega
  have led : ∀ onLink, disk.advance true onLink [] place = .ok place := by
    intro onLink
    rcases place.eq_nil_or_concat with rfl | ⟨above, last, rfl⟩
    · rfl
    · rw [List.concat_eq_append] at found ⊢
      have upper := directory_above found
      have noLink : ∀ target, disk.item? (above ++ [last]) ≠ some (.link target) := by
        intro target link
        exact plain target (Option.some.inj (found.symm.trans link))
      have notBarred : disk.isBarred [] above = false := roomy.allOpen.not_barred upper
      rw [advance_directories [] upper, notBarred, if_neg Bool.false_ne_true, List.nil_append,
        advance_name (isStep_of_isName (isName_of_item? found)) upper noLink, roomy.allOpen.not_sealed upper]
      rfl
  rw [lookup, placeOf_eq clean (by simp), if_neg short]
  show (disk.follow true mostLinks [] place >>= disk.present) = _
  rw [show disk.follow true mostLinks [] place = .ok place from led _]
  show disk.present place = _
  rw [present, found]

/-- A path that names something has the absolute path of its place as its real path. -/
theorem realPath_of_lookup (roomy : disk.Roomy ups) (own : path.parts.count ".." ≤ ups)
    (begins : disk.item? (if path.isAbsolute then [] else disk.here) = some .directory)
    (found : disk.lookup path = .ok (place, item)) :
    disk.realPath path = .ok ⟨1, place⟩ ∧ disk.lookup ⟨1, place⟩ = .ok (place, item) := by
  obtain ⟨led, held⟩ := lookup_eq_ok found
  obtain ⟨count, few, leads⟩ := leads_of_placeOf led
  have plain : ∀ target, item ≠ .link target := by
    rintro target rfl
    refine leads.not_link ?_ target held
    rw [begins]
    exact nofun
  have real := lookup_of_place roomy held plain
  have start : disk.Denotes 0 (if path.isAbsolute then ⟨1, []⟩ else ⟨0, []⟩)
      (if path.isAbsolute then [] else disk.here) := by
    split
    next => exact .fromTop []
    next relative =>
      rw [if_neg relative] at begins
      simpa using Denotes.fromHere 0 [] (Nat.le_refl 0) begins
  have room : 0 + path.parts.count ".." + count * ups ≤ (mostLinks + 1) * ups := by
    have most := Nat.mul_le_mul_right ups few
    rw [Nat.add_mul]
    omega
  have waiting : disk.Waiting [] [] count := ⟨List.nodup_nil, nofun, nofun⟩
  have deep : disk.items.length ≤ disk.items.length + 1 + ([] : List Place).length := Nat.le_succ _
  obtain ⟨free, unlinked, denotes⟩ := unlink_of_leads roomy leads held start room waiting deep
  have replaced : disk.unlinked (disk.items.length + 2) [] ⟨0, []⟩ path = .ok (free, true) := unlinked
  refine ⟨?_, real⟩
  rw [realPath, replaced]
  dsimp only
  rw [denotes.normalized held, real]

end SyntaxTally.Files.Disk
