import SyntaxTally.Proofs.Files.Tree

/-!
# The way of a path

`Leads` is the way that components take, with the number of links on it. Following components succeeds only along
such a way (`leads_of_follow`), and the way is determined (`Leads.unique`). So a path that goes on through
directories, without a link, leads to what lies below where it led, if it leads anywhere (`placeOf_under`).
-/
namespace SyntaxTally.Files

/-- The path with more components behind it. -/
def Path.under (path : Path) (parts : List String) : Path := { path with parts := path.parts ++ parts }

namespace Disk

variable {disk : Disk} {place goal between : Place} {name target : String} {parts rest more : List String}
  {item : Item} {path : Path} {links count other : Nat}

/-- A component that names something in a directory. -/
def IsStep (name : String) : Prop := name ≠ "" ∧ name ≠ "." ∧ name ≠ ".." ∧ name.utf8ByteSize ≤ longestName

theorem isStep_of_isName (isName : IsName name) : IsStep name :=
  ⟨isName.1, isName.2.1, isName.2.2.1, isName.2.2.2.2.2⟩

theorem not_link_of_directory (isDir : disk.item? place = some .directory) (target : String) :
    disk.item? place ≠ some (.link target) := by
  rw [isDir]
  exact nofun

/-- A directory in which names may be looked up. -/
structure Searchable (disk : Disk) (place : Place) : Prop where
  isDir : disk.item? place = some .directory
  unsealed : place ∉ disk.sealed

/-- A component that is no link leads on from a place. -/
inductive Steps (disk : Disk) (place : Place) (name : String) : Place → Prop
  | skip (empty : name = "") : Steps disk place name place
  | dot (isDot : name = ".") (isOpen : disk.Searchable place) : Steps disk place name place
  | up (isUp : name = "..") (isOpen : disk.Searchable place) : Steps disk place name place.dropLast
  | down (step : IsStep name) (isOpen : disk.Searchable place)
      (plain : ∀ target, disk.item? (place ++ [name]) ≠ some (.link target)) : Steps disk place name (place ++ [name])

/-- A component is a link. -/
structure LinksTo (disk : Disk) (place : Place) (name target : String) : Prop where
  step : IsStep name
  isOpen : disk.Searchable place
  found : disk.item? (place ++ [name]) = some (.link target)

/-- The components lead from one place to another, through so many links. -/
inductive Leads (disk : Disk) : Nat → Place → List String → Place → Prop
  | stay {place : Place} : Leads disk 0 place [] place
  | step {count : Nat} {place next goal : Place} {name : String} {rest : List String}
      (steps : disk.Steps place name next) (onward : Leads disk count next rest goal) :
      Leads disk count place (name :: rest) goal
  | link {within after : Nat} {place between goal : Place} {name target : String} {rest : List String}
      (linked : disk.LinksTo place name target)
      (inner : Leads disk within (startOf place target) (Path.ofString target).parts between)
      (onward : Leads disk after between rest goal) : Leads disk (within + after + 1) place (name :: rest) goal

theorem Steps.unique {next elsewhere : Place} (steps : disk.Steps place name next)
    (also : disk.Steps place name elsewhere) : next = elsewhere := by
  cases steps with
  | skip empty =>
    cases also with
    | skip | dot => rfl
    | up isUp => simp [empty] at isUp
    | down step => exact absurd empty step.1
  | dot isDot =>
    cases also with
    | skip | dot => rfl
    | up isUp => simp [isDot] at isUp
    | down step => exact absurd isDot step.2.1
  | up isUp =>
    cases also with
    | skip empty => simp [isUp] at empty
    | dot isDot => simp [isUp] at isDot
    | up => rfl
    | down step => exact absurd isUp step.2.2.1
  | down step =>
    cases also with
    | skip empty => exact absurd empty step.1
    | dot isDot => exact absurd isDot step.2.1
    | up isUp => exact absurd isUp step.2.2.1
    | down => rfl

theorem Steps.not_link {next : Place} (steps : disk.Steps place name next) : ¬ disk.LinksTo place name target := by
  rintro ⟨⟨notEmpty, notDot, notUp, -⟩, -, found⟩
  cases steps with
  | skip empty => exact notEmpty empty
  | dot isDot => exact notDot isDot
  | up isUp => exact notUp isUp
  | down _ _ plain => exact plain target found

/-- A name in a directory that is no link leads to its own place. -/
theorem Steps.eq_append {next : Place} (step : IsStep name) (steps : disk.Steps place name next) :
    next = place ++ [name] := by
  cases steps with
  | skip empty => exact absurd empty step.1
  | dot isDot => exact absurd isDot step.2.1
  | up isUp => exact absurd isUp step.2.2.1
  | down => rfl

namespace Leads

theorem split (leads : disk.Leads count place (parts ++ more) goal) :
    ∃ first second between, count = first + second ∧ disk.Leads first place parts between ∧
      disk.Leads second between more goal := by
  induction parts generalizing count place with
  | nil => exact ⟨0, count, place, by omega, .stay, leads⟩
  | cons name parts ih =>
    cases leads with
    | step steps onward =>
      obtain ⟨first, second, between, rfl, left, right⟩ := ih onward
      exact ⟨first, second, between, rfl, .step steps left, right⟩
    | link linked inner onward =>
      obtain ⟨first, second, between, rfl, left, right⟩ := ih onward
      exact ⟨_, second, between, by omega, .link linked inner left, right⟩

/-- Components that say nothing may be left out. -/
theorem filter (leads : disk.Leads count place parts goal) :
    disk.Leads count place (parts.filter fun name => name ≠ "" && name ≠ ".") goal := by
  induction leads with
  | stay => exact .stay
  | step steps _ ih =>
    cases steps with
    | skip empty =>
      rw [List.filter_cons_of_neg (by simp [empty])]
      exact ih
    | dot isDot =>
      rw [List.filter_cons_of_neg (by simp [isDot])]
      exact ih
    | up isUp isOpen =>
      rw [List.filter_cons_of_pos (by simp [isUp])]
      exact .step (.up isUp isOpen) ih
    | down step isOpen plain =>
      rw [List.filter_cons_of_pos (by simp [step.1, step.2.1])]
      exact .step (.down step isOpen plain) ih
  | link linked inner _ _ ih =>
    rw [List.filter_cons_of_pos (by simp [linked.step.1, linked.step.2.1])]
    exact .link linked inner ih

/-- The way of the components is determined. -/
theorem unique {elsewhere : Place} (leads : disk.Leads count place parts goal)
    (also : disk.Leads other place parts elsewhere) : count = other ∧ goal = elsewhere := by
  induction leads generalizing other elsewhere with
  | stay =>
    cases also
    exact ⟨rfl, rfl⟩
  | step steps _ ih =>
    cases also with
    | step alsoSteps onward => exact ih (steps.unique alsoSteps ▸ onward)
    | link linked => exact absurd linked steps.not_link
  | link linked _ _ ihInner ihOnward =>
    cases also with
    | step steps => exact absurd linked steps.not_link
    | link alsoLinked inner onward =>
      cases linked.found.symm.trans alsoLinked.found
      obtain ⟨rfl, rfl⟩ := ihInner inner
      obtain ⟨rfl, rfl⟩ := ihOnward onward
      exact ⟨rfl, rfl⟩

/-- What is gone through lies on the disk. -/
theorem begins (leads : disk.Leads count place parts goal) (found : disk.item? goal = some item) :
    ∃ first, disk.item? place = some first := by
  induction leads with
  | stay => exact ⟨item, found⟩
  | step steps _ ih =>
    cases steps with
    | skip => exact ih found
    | dot _ isOpen | up _ isOpen | down _ isOpen => exact ⟨_, isOpen.isDir⟩
  | link linked => exact ⟨_, linked.isOpen.isDir⟩

theorem not_link (leads : disk.Leads count place parts goal)
    (plain : ∀ target, disk.item? place ≠ some (.link target)) : ∀ target, disk.item? goal ≠ some (.link target) := by
  induction leads with
  | stay => exact plain
  | step steps _ ih =>
    cases steps with
    | skip | dot => exact ih plain
    | up _ isOpen => exact ih (not_link_of_directory (directory_dropLast isOpen.isDir))
    | down _ _ below => exact ih below
  | link linked _ _ ihInner ihOnward =>
    refine ihOnward (ihInner (not_link_of_directory ?_))
    unfold startOf
    split
    · rfl
    · exact linked.isOpen.isDir

/-- Components that name directories lead down from one to the next. -/
theorem eq_append (isDir : disk.item? (place ++ parts) = some .directory)
    (leads : disk.Leads count place parts goal) : goal = place ++ parts := by
  induction parts generalizing count place with
  | nil =>
    cases leads
    rw [List.append_nil]
  | cons name parts ih =>
    have below : disk.item? (place ++ [name] ++ parts) = some .directory := by rwa [List.append_assoc]
    have isHere := directory_of_append below
    cases leads with
    | step steps onward =>
      obtain rfl := steps.eq_append (isStep_of_isName (isName_of_item? isHere))
      rw [ih below onward, List.append_assoc]
      rfl
    | link linked =>
      have found := linked.found
      rw [isHere] at found
      cases found

end Leads

/-! ### Following components -/

theorem isAbsolute_ofString (text : String) : (Path.ofString text).isAbsolute = text.startsWith "/" := by
  rw [Bool.eq_iff_iff, String.startsWith_string_iff]
  show (decide ((Path.ofChars text.toList).slashes ≠ 0)) = true ↔ ['/'] <+: text.toList
  cases text.toList with
  | nil => simp [Path.ofChars]
  | cons c text =>
    by_cases slash : c = '/'
    · simp only [Path.ofChars, slash]
      split <;> simp_all
    · simp [Path.ofChars, slash, Ne.symm slash]

theorem parts_ofString (text : String) :
    (Path.ofString text).parts = (targetParts text).filter fun name => name ≠ "" && name ≠ "." := by
  show Path.meaningful (Ignore.components text.toList) = _
  rw [Path.meaningful, targetParts, List.filter_map]
  congr 1
  apply List.filter_congr
  intro part _
  have empty : String.ofList part = "" ↔ part = [] := String.ofList_eq_empty_iff
  have dot : String.ofList part = "." ↔ part = ['.'] := by
    rw [← String.ofList_toList (s := "."), String.ofList_inj]
    rfl
  simp [empty, dot]

/-- What the next component does: it cannot be gone through, it leads on, or it is a link. -/
theorem advance_cons (disk : Disk) (place : Place) (name : String) :
    (∃ fault, ∀ onLink rest, disk.advance true onLink place (name :: rest) = .error fault) ∨
    (∃ next, disk.Steps place name next ∧
      ∀ onLink rest, disk.advance true onLink place (name :: rest) = disk.advance true onLink next rest) ∨
    ∃ target, disk.LinksTo place name target ∧ ∀ onLink rest, disk.advance true onLink place (name :: rest) =
      onLink (startOf place target) (targetParts target ++ rest) := by
  cases held : disk.item? place with
  | none => exact .inl ⟨.missing, fun onLink rest => by rw [advance, held]⟩
  | some item =>
    cases item with
    | file | link | socket => exact .inl ⟨.notDirectory, fun onLink rest => by rw [advance, held]⟩
    | directory =>
      simp only [advance, held]
      by_cases empty : name = ""
      · exact .inr (.inl ⟨place, .skip empty, fun onLink rest => if_pos empty⟩)
      by_cases isSealed : disk.sealed.contains place = true
      · exact .inl ⟨.denied, fun onLink rest => by rw [if_neg empty, if_pos isSealed]⟩
      have isOpen : disk.Searchable place := ⟨held, by simpa using isSealed⟩
      simp only [if_neg empty, if_neg isSealed]
      by_cases isDot : name = "."
      · exact .inr (.inl ⟨place, .dot isDot isOpen, fun onLink rest => if_pos isDot⟩)
      by_cases isUp : name = ".."
      · exact .inr (.inl ⟨place.dropLast, .up isUp isOpen, fun onLink rest => by rw [if_neg isDot, if_pos isUp]⟩)
      simp only [if_neg isDot, if_neg isUp]
      by_cases long : longestName < name.utf8ByteSize
      · exact .inl ⟨.nameTooLong, fun onLink rest => if_pos long⟩
      have step : IsStep name := ⟨empty, isDot, isUp, by omega⟩
      simp only [if_neg long, Bool.not_true, Bool.and_false, Bool.false_eq_true, if_false]
      cases below : disk.item? (place ++ [name]) with
      | none => exact .inr (.inl ⟨_, .down step isOpen (by simp [below]), fun onLink rest => rfl⟩)
      | some item =>
        cases item with
        | link target => exact .inr (.inr ⟨target, ⟨step, isOpen, below⟩, fun onLink rest => rfl⟩)
        | file | directory | socket =>
          exact .inr (.inl ⟨_, .down step isOpen (by simp [below]), fun onLink rest => rfl⟩)

theorem leads_of_advance {onLink : Place → List String → Except Fault Place}
    (further : ∀ begin parts, onLink begin parts = .ok goal → ∃ count < links, disk.Leads count begin parts goal)
    (advanced : disk.advance true onLink place parts = .ok goal) :
    ∃ count ≤ links, disk.Leads count place parts goal := by
  induction parts generalizing place with
  | nil =>
    obtain rfl : place = goal := Except.ok.inj advanced
    exact ⟨0, Nat.zero_le _, .stay⟩
  | cons name rest ih =>
    rcases disk.advance_cons place name with ⟨fault, fails⟩ | ⟨next, steps, goesOn⟩ | ⟨target, linked, follows⟩
    · rw [fails] at advanced
      cases advanced
    · obtain ⟨count, few, onward⟩ := ih (goesOn onLink rest ▸ advanced)
      exact ⟨count, few, .step steps onward⟩
    · obtain ⟨count, few, whole⟩ := further _ _ (follows onLink rest ▸ advanced)
      obtain ⟨within, after, between, rfl, inner, onward⟩ := whole.split
      refine ⟨within + after + 1, few, .link linked ?_ onward⟩
      rw [parts_ofString]
      exact inner.filter

theorem leads_of_follow (followed : disk.follow true links place parts = .ok goal) :
    ∃ count ≤ links, disk.Leads count place parts goal := by
  induction links generalizing place parts with
  | zero => exact leads_of_advance (fun _ _ none => by cases none) followed
  | succ links ih =>
    refine leads_of_advance (fun begin parts led => ?_) followed
    obtain ⟨count, few, leads⟩ := ih led
    exact ⟨count, by omega, leads⟩

theorem leads_of_placeOf (leads : disk.placeOf true path = .ok goal) :
    ∃ count ≤ mostLinks, disk.Leads count (if path.isAbsolute then [] else disk.here) path.parts goal :=
  leads_of_follow (follow_of_placeOf leads)

/-! ### Paths that go on -/

theorem advance_append {onLink : Place → List String → Except Fault Place} {begin : Place} (links : Nat)
    (same : ∀ more, disk.advance true onLink place more = disk.follow true links place more)
    (further : ∀ begin parts, onLink begin parts = .ok place →
      ∃ left, ∀ more, onLink begin (parts ++ more) = disk.follow true left place more)
    (leads : disk.advance true onLink begin parts = .ok place) :
    ∃ left, ∀ more, disk.advance true onLink begin (parts ++ more) = disk.follow true left place more := by
  induction parts generalizing begin with
  | nil =>
    obtain rfl : begin = place := Except.ok.inj leads
    exact ⟨links, same⟩
  | cons name parts ih =>
    rcases disk.advance_cons begin name with ⟨fault, fails⟩ | ⟨next, -, goesOn⟩ | ⟨target, -, follows⟩
    · rw [fails] at leads
      cases leads
    · obtain ⟨left, rest⟩ := ih (goesOn onLink parts ▸ leads)
      exact ⟨left, fun more => (goesOn onLink _).trans (rest more)⟩
    · obtain ⟨left, rest⟩ := further _ _ (follows onLink parts ▸ leads)
      refine ⟨left, fun more => (follows onLink (parts ++ more)).trans ?_⟩
      rw [← List.append_assoc]
      exact rest more

/-- Where components lead, more of them are followed from there, with the links that are left. -/
theorem follow_append {begin : Place} (leads : disk.follow true links begin parts = .ok place) :
    ∃ left, ∀ more, disk.follow true links begin (parts ++ more) = disk.follow true left place more := by
  induction links generalizing begin parts with
  | zero => exact advance_append 0 (fun _ => rfl) (fun _ _ none => by cases none) leads
  | succ links ih => exact advance_append (links + 1) (fun _ => rfl) (fun _ _ => ih) leads

/-- One of the directories on the way down may not be searched. -/
def isBarred (disk : Disk) (place : Place) : List String → Bool
  | [] => false
  | name :: rest => disk.sealed.contains place || isBarred disk (place ++ [name]) rest

section

variable {last : Bool} {onLink : Place → List String → Except Fault Place}

theorem advance_name (step : IsStep name) (isDir : disk.item? place = some .directory)
    (plain : ∀ target, disk.item? (place ++ [name]) ≠ some (.link target)) :
    disk.advance last onLink place (name :: rest) =
      if disk.sealed.contains place then .error .denied else disk.advance last onLink (place ++ [name]) rest := by
  obtain ⟨notEmpty, notDot, notUp, short⟩ := step
  rw [advance, isDir]
  simp only [notEmpty, notDot, notUp, Nat.not_lt.mpr short, if_false]

/-- Components that name directories are gone through one after the other, if all of these may be searched. -/
theorem advance_directories (place : Place) (isDir : disk.item? (place ++ parts) = some .directory) :
    disk.advance last onLink place (parts ++ rest) =
      if disk.isBarred place parts then .error .denied else disk.advance last onLink (place ++ parts) rest := by
  induction parts generalizing place with
  | nil =>
    rw [List.append_nil]
    rfl
  | cons name parts ih =>
    have below : disk.item? (place ++ [name] ++ parts) = some .directory := by rwa [List.append_assoc]
    have found := directory_of_append below
    rw [List.cons_append, advance_name (isStep_of_isName (isName_of_item? found)) (directory_above found)
      (not_link_of_directory found), ih _ below, List.append_assoc, isBarred]
    cases disk.sealed.contains place <;> rfl

/-- Through directories a name is looked up in the last of them. -/
theorem advance_child (step : IsStep name) (place : Place) (isDir : disk.item? (place ++ parts) = some .directory)
    (plain : ∀ target, disk.item? (place ++ parts ++ [name]) ≠ some (.link target)) :
    disk.advance last onLink place (parts ++ [name]) =
      if disk.isBarred place (parts ++ [name]) then .error .denied else .ok (place ++ parts ++ [name]) := by
  have both : disk.isBarred place (parts ++ [name]) =
      (disk.isBarred place parts || disk.sealed.contains (place ++ parts)) := by
    clear isDir plain
    induction parts generalizing place with
    | nil => simp [isBarred]
    | cons part parts ih => simp [isBarred, ih, Bool.or_assoc]
  rw [advance_directories place isDir, advance_name step isDir plain, both]
  cases disk.isBarred place parts <;> cases disk.sealed.contains (place ++ parts) <;> rfl

end

/-- A path leads to a place, and from there directories lead down. -/
structure Reaches (disk : Disk) (root : Path) (above : Place) (parts : List String) : Prop where
  leads : disk.placeOf true root = .ok above
  isDir : disk.item? (above ++ parts) = some .directory

theorem hasNull_child (path : Path) (name : String) :
    (path.child name).hasNull = (path.hasNull || name.toList.contains '\x00') := by
  simp [Path.hasNull, Path.child]

theorem no_null_of_placeOf {last : Bool} (leads : disk.placeOf last path = .ok place) : path.hasNull = false := by
  unfold placeOf at leads
  split at leads
  · cases leads
  · simpa using ‹¬ path.hasNull = true›

namespace Reaches

variable {root : Path} {above : Place}

theorem no_null (reaches : disk.Reaches root above parts) : (root.under parts).hasNull = false := by
  have upper := no_null_of_placeOf reaches.leads
  rw [Path.hasNull, List.any_eq_false] at upper ⊢
  intro name member
  rcases List.mem_append.mp member with inRoot | inParts
  · exact upper name inRoot
  · simpa using (named_of_item? reaches.isDir name (List.mem_append_right _ inParts)).2.2.2.2.1

/-- Where a name in the directory leads that is no link. -/
theorem placeOf_child (reaches : disk.Reaches root above parts) (isName : IsName name)
    (plain : ∀ target, disk.item? (above ++ parts ++ [name]) ≠ some (.link target)) :
    disk.placeOf true ((root.under parts).child name) =
      if longestPath < ((root.under parts).child name).toString.utf8ByteSize then .error .nameTooLong
      else if disk.isBarred above (parts ++ [name]) then .error .denied else .ok (above ++ parts ++ [name]) := by
  have noNull : ((root.under parts).child name).hasNull = false := by
    rw [hasNull_child, reaches.no_null]
    simpa using isName.2.2.2.2.1
  have elsewhere : disk.isBarredHere ((root.under parts).child name) = false := by simp [isBarredHere, Path.child]
  rw [placeOf, noNull, elsewhere, if_neg Bool.false_ne_true, if_neg Bool.false_ne_true]
  split
  · rfl
  obtain ⟨left, onward⟩ := follow_append (follow_of_placeOf reaches.leads)
  show disk.follow true mostLinks (if root.isAbsolute then [] else disk.here) (root.parts ++ parts ++ [name]) = _
  rw [List.append_assoc, onward]
  cases left with
  | zero => exact advance_child (isStep_of_isName isName) above reaches.isDir plain
  | succ left => exact advance_child (isStep_of_isName isName) above reaches.isDir plain

/-- The path leads down to the directory, if it leads anywhere. -/
theorem placeOf_eq_ok (reaches : disk.Reaches root above parts)
    (onward : disk.placeOf true (root.under parts) = .ok goal) : goal = above ++ parts := by
  obtain ⟨_, -, first⟩ := leads_of_placeOf reaches.leads
  obtain ⟨_, -, whole⟩ := leads_of_placeOf onward
  obtain ⟨_, _, between, -, upper, lower⟩ := whole.split
  obtain ⟨-, rfl⟩ := upper.unique first
  exact lower.eq_append reaches.isDir

end Reaches

theorem placeOf_top (disk : Disk) : disk.placeOf true ⟨1, []⟩ = .ok [] := by
  have short : ¬ longestPath < (Path.toString ⟨1, []⟩).utf8ByteSize := by decide
  rw [placeOf, if_neg (by decide), if_neg short]
  rfl

/-- The real path of a directory goes down to it from the top. -/
theorem reaches_real (isDir : disk.item? place = some .directory) : disk.Reaches ⟨1, []⟩ [] place :=
  ⟨disk.placeOf_top, isDir⟩

/-! ### Two disks -/

/-- Two disks on which a path goes down to the directory, and on which the same may not be searched or opened. -/
structure BothReach (left right : Disk) (path : Path) (directory : Place) : Prop where
  way : ∃ root above parts, left.Reaches root above parts ∧ right.Reaches root above parts ∧
    path = root.under parts ∧ directory = above ++ parts
  alike : left.sealed = right.sealed

namespace BothReach

variable {left right : Disk} {directory : Place}

theorem isBarred_congr (alike : left.sealed = right.sealed) (place : Place) (parts : List String) :
    left.isBarred place parts = right.isBarred place parts := by
  induction parts generalizing place with
  | nil => rfl
  | cons name rest ih => rw [isBarred, isBarred, alike, ih]

/-- A name in the directory that is no link on either disk leads to its own place on both, or fails alike. -/
theorem placeOf_child (both : BothReach left right path directory) (isName : IsName name)
    (plain : ∀ target, left.item? (directory ++ [name]) ≠ some (.link target))
    (plainToo : ∀ target, right.item? (directory ++ [name]) ≠ some (.link target)) :
    left.placeOf true (path.child name) = right.placeOf true (path.child name) ∧
      ∀ goal, left.placeOf true (path.child name) = .ok goal → goal = directory ++ [name] := by
  obtain ⟨root, above, parts, reaches, reachesToo, rfl, rfl⟩ := both.way
  rw [reaches.placeOf_child isName plain, reachesToo.placeOf_child isName plainToo, isBarred_congr both.alike]
  refine ⟨rfl, fun goal leads => ?_⟩
  split at leads
  · cases leads
  split at leads
  · cases leads
  · exact (Except.ok.inj leads).symm

/-- The path itself leads to the directory on both disks, or fails alike. -/
theorem placeOf_eq (both : BothReach left right path directory) :
    left.placeOf true path = right.placeOf true path := by
  obtain ⟨root, above, parts, reaches, reachesToo, rfl, rfl⟩ := both.way
  rcases parts.eq_nil_or_concat with rfl | ⟨upper, name, rfl⟩
  · have itself : root.under [] = root := by simp [Path.under]
    rw [itself, reaches.leads, reachesToo.leads]
  · rw [List.concat_eq_append] at reaches reachesToo ⊢
    have isDir := reaches.isDir
    have isDirToo := reachesToo.isDir
    rw [← List.append_assoc] at isDir isDirToo
    have upwards : BothReach left right (root.under upper) (above ++ upper) :=
      ⟨⟨root, above, upper, ⟨reaches.leads, directory_above isDir⟩, ⟨reachesToo.leads, directory_above isDirToo⟩,
        rfl, rfl⟩, both.alike⟩
    have onward := (upwards.placeOf_child (isName_of_item? isDir) (not_link_of_directory isDir)
      (not_link_of_directory isDirToo)).1
    simpa [Path.under, Path.child] using onward

/-- A name in the directory with the same behind it is read alike, unless it is a link. -/
theorem readBytes_child (both : BothReach left right path directory) (isName : IsName name)
    (same : left.item? (directory ++ [name]) = right.item? (directory ++ [name]))
    (plain : ∀ target, right.item? (directory ++ [name]) ≠ some (.link target)) :
    left.readBytes (path.child name) = right.readBytes (path.child name) := by
  obtain ⟨leads, itself⟩ := both.placeOf_child isName (by simpa [same] using plain) plain
  rw [readBytes, readBytes, ← leads]
  cases found : left.placeOf true (path.child name) with
  | error fault => rfl
  | ok goal =>
    obtain rfl := itself goal found
    show left.bytesAt (directory ++ [name]) = right.bytesAt (directory ++ [name])
    rw [bytesAt, bytesAt, same, both.alike]

end BothReach

end Disk

end SyntaxTally.Files
