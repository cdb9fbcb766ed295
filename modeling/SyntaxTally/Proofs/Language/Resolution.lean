import Mathlib.Tactic.IntervalCases
import SyntaxTally.Analyzer
import SyntaxTally.Proofs.Files.RealPath
import SyntaxTally.Proofs.Ignore.Glob
import SyntaxTally.Proofs.Ignore.Rule

/-!
# Languages by the last name of a path

Of a path only its last name counts, and of that only what follows its last dot, if this dot is neither the first
character of the name nor the last one. `language_of_last_name` says this of every text, whatever slashes and dots
it has before and behind that name.
-/
namespace SyntaxTally

open Files Ignore

variable {text other : String} {name stem ending : List Char} {path : Path} {language : Language}

/-! ### The last name -/

/-- Between the slashes of the text this is the last component that is neither empty nor a dot. -/
def LastName (text : String) (name : List Char) : Prop :=
  ∃ before after, text.toList.splitOn '/' = before ++ name :: after ∧ name ≠ [] ∧ name ≠ ['.'] ∧
    ∀ part ∈ after, part = [] ∨ part = ['.']

/-- Behind the last dot of the name there is nothing, before it there is nothing, or there is no dot. -/
def Extensionless (name : List Char) : Prop :=
  '.' ∉ name ∨ (∃ rest, name = '.' :: rest ∧ '.' ∉ rest) ∨ ∃ stem, name = stem ++ ['.']

namespace Files.Path

theorem getLast?_parts_iff : (ofString text).parts.getLast? = some (String.ofList name) ↔ LastName text name := by
  show (meaningful (components text.toList)).getLast? = _ ↔ _
  rw [meaningful, List.getLast?_map, Option.map_eq_some_iff]
  simp only [String.ofList_inj, exists_eq_right]
  rw [getLast?_filter_iff, components_eq_splitOn]
  simp [LastName, and_assoc, or_iff_not_imp_left]

theorem lastName_unique {found : List Char} (last : LastName text name) (alsoLast : LastName text found) :
    name = found := by
  rw [← getLast?_parts_iff] at last alsoLast
  exact String.ofList_inj.mp (Option.some.inj (last.symm.trans alsoLast))

theorem name_of_lastName (last : LastName text name) : (ofString text).name = String.ofList name := by
  rw [Path.name, getLast?_parts_iff.mpr last]
  rfl

theorem name_of_none (none : ∀ name, ¬ LastName text name) : (ofString text).name = "" := by
  rw [Path.name]
  cases last : (ofString text).parts.getLast? with
  | none => rfl
  | some found =>
    refine absurd (getLast?_parts_iff.mp ?_) (none found.toList)
    rw [last, String.ofList_toList]

/-! ### What follows the last dot -/

theorem takeWhile_reverse (plain : '.' ∉ ending) (rest : List Char) :
    (ending.reverse ++ rest).takeWhile (· ≠ '.') = ending.reverse ++ rest.takeWhile (· ≠ '.') := by
  apply List.takeWhile_append_of_pos
  intro c member
  apply decide_eq_true
  rintro rfl
  exact plain (List.mem_reverse.mp member)

theorem suffixOf_of_stem (some : stem ≠ []) (more : ending ≠ []) (plain : '.' ∉ ending) :
    suffixOf (stem ++ '.' :: ending) = '.' :: ending := by
  have tail : ((stem ++ '.' :: ending).reverse.takeWhile (· ≠ '.')).reverse = ending := by
    rw [List.reverse_append, List.reverse_cons, List.append_assoc, takeWhile_reverse plain]
    simp
  have before : 0 < stem.length := List.length_pos_iff.mpr some
  unfold suffixOf
  dsimp only
  rw [tail, if_neg]
  simp only [List.isEmpty_iff, more, false_or, Bool.or_eq_true, decide_eq_true_eq, List.length_append,
    List.length_cons]
  omega

theorem exists_stem (extended : ¬ Extensionless name) :
    ∃ stem ending, name = stem ++ '.' :: ending ∧ stem ≠ [] ∧ ending ≠ [] ∧ '.' ∉ ending := by
  simp only [Extensionless, not_or, not_not, not_exists, not_and] at extended
  obtain ⟨dotted, notFirst, notLast⟩ := extended
  obtain ⟨behind, before, split, plain⟩ := List.eq_append_cons_of_mem (List.mem_reverse.mpr dotted)
  have whole : name = before.reverse ++ '.' :: behind.reverse := by
    rw [← List.reverse_reverse name, split]
    simp
  have free : '.' ∉ behind.reverse := by simpa using plain
  refine ⟨before.reverse, behind.reverse, whole, ?_, ?_, free⟩
  · intro none
    rw [none] at whole
    exact free (notFirst _ whole)
  · intro none
    rw [none] at whole
    exact notLast _ whole

theorem suffixOf_eq_nil_iff : suffixOf name = [] ↔ Extensionless name := by
  constructor
  · intro empty
    by_contra extended
    obtain ⟨stem, ending, rfl, some, more, plain⟩ := exists_stem extended
    rw [suffixOf_of_stem some more plain] at empty
    cases empty
  · unfold suffixOf
    dsimp only
    rintro (plain | ⟨rest, rfl, plain⟩ | ⟨stem, rfl⟩)
    · have all := takeWhile_reverse plain []
      rw [List.append_nil] at all
      rw [all]
      simp
    · rw [List.reverse_cons, takeWhile_reverse plain]
      simp
    · simp

/-- A name has an extension if it ends with it and is longer. -/
theorem suffixOf_eq_iff (more : ending ≠ []) (plain : '.' ∉ ending) :
    suffixOf name = '.' :: ending ↔ '.' :: ending <:+ name ∧ ending.length + 1 < name.length := by
  constructor
  · intro found
    have extended : ¬ Extensionless name := by
      intro none
      rw [suffixOf_eq_nil_iff.mpr none] at found
      cases found
    obtain ⟨stem, behind, rfl, some, moreBehind, plainBehind⟩ := exists_stem extended
    rw [suffixOf_of_stem some moreBehind plainBehind] at found
    obtain ⟨-, rfl⟩ := List.cons.inj found
    have before : 0 < stem.length := List.length_pos_iff.mpr some
    refine ⟨List.suffix_append stem _, ?_⟩
    rw [List.length_append, List.length_cons]
    omega
  · rintro ⟨⟨stem, rfl⟩, longer⟩
    apply suffixOf_of_stem _ more plain
    rintro rfl
    simp at longer

theorem extension_of_lastName (last : LastName text name) :
    (ofString text).extension = String.ofList (suffixOf name) := by
  rw [Path.extension, name_of_lastName last, String.toList_ofList]

theorem extension_of_none (none : ∀ name, ¬ LastName text name) : (ofString text).extension = "" := by
  rw [Path.extension, name_of_none none]
  rfl

/-! ### Written paths -/

theorem components_replicate (slashes : Nat) (text : List Char) :
    components (List.replicate slashes '/' ++ text) = List.replicate slashes [] ++ components text := by
  induction slashes with
  | zero => rfl
  | succ slashes ih => rw [List.replicate_succ, List.cons_append, components, if_pos rfl, ih]; rfl

theorem toList_toString (path : Path) (some : ¬ (path.slashes = 0 ∧ path.parts = [])) :
    path.toString.toList = List.replicate path.slashes '/' ++ joined (path.parts.map String.toList) := by
  have full : ¬ (decide (path.slashes = 0) && path.parts.isEmpty) = true := by simpa using some
  rw [Path.toString, if_neg full, String.toList_append, String.toList_ofList, String.toList_intercalate]
  rfl

theorem mem_parts_ofString {part : String} (listed : part ∈ (ofString text).parts) :
    part.toList ≠ [] ∧ part.toList ≠ ['.'] ∧ '/' ∉ part.toList := by
  obtain ⟨chars, kept, rfl⟩ := List.mem_map.mp (show part ∈ meaningful (components text.toList) from listed)
  obtain ⟨among, said⟩ := List.mem_filter.mp kept
  rw [String.toList_ofList]
  have plain := (areComponents text.toList).slashless chars among
  simp only [Bool.and_eq_true, decide_eq_true_eq] at said
  exact ⟨said.1, said.2, plain⟩

theorem takeWhile_joined (text : String) :
    (joined ((ofString text).parts.map String.toList)).takeWhile (· = '/') = [] := by
  cases listed : (ofString text).parts with
  | nil => rfl
  | cons part rest =>
    have member : part ∈ (ofString text).parts := listed ▸ List.mem_cons_self
    obtain ⟨some, -, plain⟩ := mem_parts_ofString member
    obtain ⟨c, more, split⟩ := List.exists_cons_of_ne_nil some
    have other : c ≠ '/' := by
      rintro rfl
      exact plain (by simp [split])
    cases rest with
    | nil => simp [joined, split, other]
    | cons next rest => simp [joined, split, other]

theorem slashes_ofString_le (text : String) : (ofString text).slashes ≤ 2 := by
  show (ofChars text.toList).slashes ≤ 2
  simp only [ofChars]
  split <;> omega

theorem meaningful_replicate (slashes : Nat) (parts : List (List Char)) :
    meaningful (List.replicate slashes [] ++ parts) = meaningful parts := by
  simp [meaningful]

theorem meaningful_parts (text : String) :
    meaningful (components (joined ((ofString text).parts.map String.toList))) = (ofString text).parts := by
  cases listed : (ofString text).parts with
  | nil => rfl
  | cons part rest =>
    rw [← listed]
    have kept : ∀ chars ∈ (ofString text).parts.map String.toList, (chars ≠ [] && chars ≠ ['.']) = true := by
      intro chars member
      obtain ⟨part, among, rfl⟩ := List.mem_map.mp member
      obtain ⟨some, notDot, -⟩ := mem_parts_ofString among
      simp [some, notDot]
    have are : AreComponents ((ofString text).parts.map String.toList) := by
      refine ⟨by simp [listed], fun chars member => ?_⟩
      obtain ⟨part, among, rfl⟩ := List.mem_map.mp member
      exact (mem_parts_ofString among).2.2
    rw [are.components_joined, meaningful, List.filter_eq_self.mpr kept, List.map_map]
    simp [Function.comp_def]

/-- The written form of a path is read as the same path again. -/
theorem ofString_toString (text : String) : ofString (ofString text).toString = ofString text := by
  by_cases blank : (ofString text).slashes = 0 ∧ (ofString text).parts = []
  · have same : ofString text = ⟨0, []⟩ := by
      rw [← blank.1, ← blank.2]
    rw [same]
    decide
  · have few := slashes_ofString_le text
    have lead : ((List.replicate (ofString text).slashes '/' ++
        joined ((ofString text).parts.map String.toList)).takeWhile (· = '/')).length = (ofString text).slashes := by
      rw [List.takeWhile_append_of_pos (by simp), takeWhile_joined]
      simp
    have rest := meaningful_parts text
    show ofChars (ofString text).toString.toList = _
    rw [toList_toString _ blank]
    generalize ofString text = path at *
    obtain ⟨slashes, parts⟩ := path
    simp only [ofChars, lead, components_replicate, meaningful_replicate, rest, mk.injEq, and_true]
    dsimp only at few
    interval_cases slashes <;> rfl

/-! ### Paths put together -/

theorem components_append (above text : List Char) :
    components (above ++ '/' :: text) = components above ++ components text := by
  induction above with
  | nil => simp [components]
  | cons c above ih =>
    rw [List.cons_append, components, components, ih]
    split
    · rfl
    · cases listed : components above with
      | nil => exact absurd (areComponents above).some (by simp [listed])
      | cons first more => rfl

theorem parts_append (above text : String) :
    (ofString (above ++ "/" ++ text)).parts = (ofString above).parts ++ (ofString text).parts := by
  show meaningful (components (above ++ "/" ++ text).toList) = _
  have spelled : (above ++ "/" ++ text).toList = above.toList ++ '/' :: text.toList := by simp
  rw [spelled, components_append, meaningful, List.filter_append, List.map_append]
  rfl

theorem extension_of_parts (same : (ofString other).parts.getLast? = (ofString text).parts.getLast?) :
    (ofString other).extension = (ofString text).extension := by
  rw [Path.extension, Path.extension, Path.name, Path.name, same]

theorem parts_of_lastName (last : LastName text name) : (ofString text).parts ≠ [] := by
  intro none
  have found := getLast?_parts_iff.mpr last
  rw [none] at found
  cases found

theorem size_name_le (last : LastName text name) :
    (String.ofList name).utf8ByteSize ≤ (ofString text).toString.utf8ByteSize := by
  obtain ⟨front, whole⟩ := List.getLast?_eq_some_iff.mp (getLast?_parts_iff.mpr last)
  have size := Disk.utf8ByteSize_toString (ofString text) (parts_of_lastName last)
  rw [whole, Disk.width_append, Disk.width, Disk.width] at size
  omega

end Files.Path

/-! ### Languages -/

namespace Language

theorem ofExtension?_eq_some_iff {extension : String} :
    ofExtension? extension = some language ↔ extension = language.extension := by
  constructor
  · intro found
    simpa [eq_comm] using List.find?_some found
  · rintro rfl
    cases language <;> decide

theorem ofPath_eq_ok_iff : ofPath path = .ok language ↔ path.extension = language.extension := by
  have named : language.extension.isEmpty = false := by cases language <;> decide
  unfold ofPath
  rw [← ofExtension?_eq_some_iff]
  constructor
  · intro found
    split at found
    · cases found
    · split at found
      · cases found
        assumption
      · cases found
  · intro found
    have same := ofExtension?_eq_some_iff.mp found
    rw [same, named, ← same, found]
    rfl

theorem ofPath_of_extensionless (none : path.extension = "") : ofPath path = .error (.noExtension path) := by
  unfold ofPath
  rw [none]
  rfl

theorem ofPath_of_unknown (some : path.extension = String.ofList ('.' :: ending))
    (unknown : ∀ language, ofPath path ≠ .ok language) :
    ofPath path = .error (.unknownExtension (String.ofList ending) path) := by
  have full : path.extension.isEmpty = false := by simp [some]
  have missed : ofExtension? path.extension = none := by
    rw [Option.eq_none_iff_forall_ne_some]
    intro language found
    exact unknown language (ofPath_eq_ok_iff.mpr (ofExtension?_eq_some_iff.mp found))
  unfold ofPath
  rw [full, missed, some, String.toList_ofList]
  rfl

end Language

/-- What a fault tells besides the path: the extension that is not known, if there is one. -/
def ResolutionFault.extension? : ResolutionFault → Option String
  | noExtension _ => none
  | unknownExtension extension _ => some extension

namespace Language

/-- The language of a written path, or else the extension that is not known. -/
def answer (text : String) : Except (Option String) Language :=
  (ofPath (.ofString text)).mapError ResolutionFault.extension?

theorem answer_of_parts (same : (Path.ofString other).parts.getLast? = (Path.ofString text).parts.getLast?) :
    answer other = answer text := by
  unfold answer ofPath
  rw [Path.extension_of_parts same]
  split
  · rfl
  · split <;> rfl

theorem ofPath_ok_iff_lastName (ending : List Char) (known : language.extension = String.ofList ('.' :: ending))
    (more : ending ≠ []) (plain : '.' ∉ ending) :
    ofPath (.ofString text) = .ok language ↔
      ∃ name, LastName text name ∧ '.' :: ending <:+ name ∧ ending.length + 1 < name.length := by
  rw [ofPath_eq_ok_iff, known]
  constructor
  · intro same
    by_cases none : ∀ name, ¬ LastName text name
    · rw [Path.extension_of_none none] at same
      exact absurd (congrArg String.toList same) (by simp)
    · obtain ⟨name, last⟩ := not_forall_not.mp none
      rw [Path.extension_of_lastName last, String.ofList_inj] at same
      exact ⟨name, last, (Path.suffixOf_eq_iff more plain).mp same⟩
  · rintro ⟨name, last, ends⟩
    rw [Path.extension_of_lastName last, (Path.suffixOf_eq_iff more plain).mpr ends]

theorem messages_differ (last : LastName text (stem ++ '.' :: ending)) (some : stem ≠ []) :
    "Unsupported extension: " ++ String.ofList ending ≠ (Path.ofString text).toString ++ " has no file extension" := by
  intro same
  obtain ⟨c, rest, rfl⟩ := List.exists_cons_of_ne_nil some
  have sizes := congrArg String.utf8ByteSize same
  have long := Path.size_name_le last
  have opening : "Unsupported extension: ".utf8ByteSize = 23 := by decide
  have closing : " has no file extension".utf8ByteSize = 22 := by decide
  have dot : '.'.utf8Size = 1 := by decide
  have positive : 0 < c.utf8Size := c.utf8Size_pos
  rw [String.utf8ByteSize_append, String.utf8ByteSize_append, opening, closing] at sizes
  rw [String.ofList_append, String.utf8ByteSize_append, String.ofList_cons, String.utf8ByteSize_append,
    String.ofList_cons, String.utf8ByteSize_append, String.utf8ByteSize_singleton, String.utf8ByteSize_singleton,
    dot] at long
  omega

theorem fault_of_extensionless (bare : ∀ name, LastName text name → Extensionless name) :
    ofPath (.ofString text) = .error (.noExtension (.ofString text)) := by
  apply ofPath_of_extensionless
  by_cases none : ∀ name, ¬ LastName text name
  · exact Path.extension_of_none none
  · obtain ⟨name, last⟩ := not_forall_not.mp none
    rw [Path.extension_of_lastName last, Path.suffixOf_eq_nil_iff.mpr (bare name last)]

theorem fault_of_extended (last : LastName text (stem ++ '.' :: ending)) (some : stem ≠ []) (more : ending ≠ [])
    (plain : '.' ∉ ending) (unknown : ∀ language, ofPath (.ofString text) ≠ .ok language) :
    ofPath (.ofString text) = .error (.unknownExtension (String.ofList ending) (.ofString text)) := by
  refine ofPath_of_unknown ?_ unknown
  rw [Path.extension_of_lastName last, Path.suffixOf_of_stem some more plain]

/-- A text is the path of a source in a language if its last name ends with the extension and is longer. Every other
text is a fault that carries the path: its last name has no extension, or one that is not known. Directories before
the last name, more slashes and dots between slashes make no difference. -/
theorem language_of_last_name (text : String) :
    (ofPath (.ofString text) = .ok .python ↔
      ∃ name, LastName text name ∧ ['.', 'p', 'y'] <:+ name ∧ 3 < name.length) ∧
    (ofPath (.ofString text) = .ok .rust ↔
      ∃ name, LastName text name ∧ ['.', 'r', 's'] <:+ name ∧ 3 < name.length) ∧
    ((∀ language, ofPath (.ofString text) ≠ .ok language) → ∃ fault, ofPath (.ofString text) = .error fault ∧
      (AnalysisFault.resolution fault).kind = .unsupportedLanguage ∧
      fault.path = .ofString text ∧ Path.ofString fault.path.toString = fault.path ∧
      (fault.message = fault.path.toString ++ " has no file extension" ↔
        (¬ ∃ name, LastName text name) ∨ ∃ name, LastName text name ∧ Extensionless name) ∧
      ∀ stem ending, LastName text (stem ++ '.' :: ending) → stem ≠ [] → ending ≠ [] → '.' ∉ ending →
        fault.message = "Unsupported extension: " ++ String.ofList ending) ∧
    (∀ above, (∃ name, LastName text name) → answer (above ++ "/" ++ text) = answer text) ∧
    (∀ silent ∈ ["", "."], answer (silent ++ "/" ++ text) = answer text ∧ answer (text ++ "/" ++ silent) = answer text ∧
      ∀ rest, answer (text ++ "/" ++ (silent ++ "/" ++ rest)) = answer (text ++ "/" ++ rest)) := by
  refine ⟨ofPath_ok_iff_lastName ['p', 'y'] rfl (by decide) (by decide),
    ofPath_ok_iff_lastName ['r', 's'] rfl (by decide) (by decide), ?_, ?_, ?_⟩
  · intro unknown
    by_cases bare : ∀ name, LastName text name → Extensionless name
    · refine ⟨_, fault_of_extensionless bare, rfl, rfl, Path.ofString_toString text, ⟨fun _ => ?_, fun _ => rfl⟩, ?_⟩
      · by_cases exists_name : ∃ name, LastName text name
        · obtain ⟨name, last⟩ := exists_name
          exact .inr ⟨name, last, bare name last⟩
        · exact .inl exists_name
      · intro stem ending last some more plain
        have none := Path.suffixOf_eq_nil_iff.mpr (bare _ last)
        rw [Path.suffixOf_of_stem some more plain] at none
        cases none
    · simp only [not_forall] at bare
      obtain ⟨name, last, extended⟩ := bare
      obtain ⟨stem, ending, rfl, some, more, plain⟩ := Path.exists_stem extended
      refine ⟨_, fault_of_extended last some more plain unknown, rfl, rfl, Path.ofString_toString text,
        ⟨fun same => absurd same (messages_differ last some), ?_⟩, ?_⟩
      · rintro (none | ⟨name, alsoLast, bare⟩)
        · exact absurd ⟨_, last⟩ none
        · exact absurd (Path.lastName_unique alsoLast last ▸ bare) extended
      · intro front rest alsoLast someFront moreRest plainRest
        have same := congrArg Path.suffixOf (Path.lastName_unique last alsoLast)
        rw [Path.suffixOf_of_stem some more plain, Path.suffixOf_of_stem someFront moreRest plainRest] at same
        rw [(List.cons.inj same).2]
        rfl
  · rintro above ⟨name, last⟩
    apply answer_of_parts
    rw [Path.parts_append, List.getLast?_append_of_ne_nil _ (Path.parts_of_lastName last)]
  · intro silent listed
    have nothing : (Path.ofString silent).parts = [] := by
      rcases List.mem_pair.mp listed with rfl | rfl <;> decide
    refine ⟨?_, ?_, fun rest => ?_⟩
    all_goals
      apply answer_of_parts
      simp only [Path.parts_append, nothing, List.append_nil, List.nil_append]

example : answer "src//./..py/." = .ok .python ∧ answer "/x/.py" = .error none ∧ answer "a.py." = .error none ∧
    answer ".." = .error none ∧ answer "module.PY" = .error (some "PY") := by
  decide

end Language

end SyntaxTally
