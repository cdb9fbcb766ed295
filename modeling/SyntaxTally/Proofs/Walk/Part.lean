import SyntaxTally.Proofs.Walk.Choice

/-!
# Walking a part of a checkout

Whether a walk keeps a name depends on the ignore files from the top of the checkout down to the directory of
the name, wherever the walk begins: those above its root see the name through a lead, those below it without
their base, and both see what lies between their directory and the name (`matching_scopesOver`). Those above the root
are read by their real paths and those below it by the path of the walk; where both give the same rules, a scan of a
directory in a checkout hands out what a scan from further up hands out there (`scan_of_part`).
-/
namespace SyntaxTally

open Files Ignore

/-- The other path is this one or lies beneath it. -/
def Files.Path.holds (path other : Path) : Bool :=
  path.slashes = other.slashes && path.parts.isPrefixOf other.parts

namespace Walk

variable {disk : Disk} {options : Options} {first second : Job} {root : Path} {place : Place}
  {parts rest : List String} {name : String}

/-! ### What the rules of a directory see -/

theorem spelled_append (some : parts ≠ []) (more : rest ≠ []) :
    spelled (parts ++ rest) = spelled parts ++ '/' :: spelled rest := by
  induction rest using List.reverseRecOn with
  | nil => exact absurd rfl more
  | append_singleton rest last ih =>
    rcases rest.eq_nil_or_concat with rfl | ⟨_, _, longer⟩
    · rw [List.nil_append, spelled_append_singleton some]
      simp [spelled, joined]
    · have full : rest ≠ [] := by simp [longer]
      rw [← List.append_assoc, spelled_append_singleton (by simp [some]), ih full,
        spelled_append_singleton full]
      simp

theorem spelled_eq_nil_iff (proper : ∀ name ∈ parts, name ≠ "") : spelled parts = [] ↔ parts = [] := by
  constructor
  · intro empty
    rcases parts.eq_nil_or_concat with none | ⟨above, last, rfl⟩
    · exact none
    · rw [List.concat_eq_append] at empty
      exact absurd empty (spelled_ne_nil above (proper last (by simp)))
  · rintro rfl
    rfl

theorem relative_lead {lead : List String} (some : lead ≠ []) (proper : ∀ name ∈ lead, name ≠ "")
    (more : rest ≠ []) (rules : List Rule) :
    ({ base := [], rules, lead := spelled lead } : Scope).relative (spelled rest) =
      .some (spelled (lead ++ rest)) := by
  have leads : spelled lead ≠ [] := fun empty => some ((spelled_eq_nil_iff proper).mp empty)
  rw [Scope.relative, if_pos (by simpa using leads), spelled_append some more]

theorem relative_base (proper : ∀ name ∈ parts, name ≠ "") (more : rest ≠ []) (rules : List Rule) :
    ({ base := spelled parts, rules } : Scope).relative (spelled (parts ++ rest)) =
      some (spelled rest) := by
  rw [Scope.relative, if_neg (by simp)]
  by_cases top : parts = []
  · subst top
    rfl
  · have based : spelled parts ≠ [] := fun empty => top ((spelled_eq_nil_iff proper).mp empty)
    rw [if_neg (by simpa using based), spelled_append top more, if_pos]
    · simp [List.drop_append]
    · rw [List.isPrefixOf_iff_prefix]
      exact ⟨spelled rest, by simp⟩

/-- The rules of the ignore files in a directory, and where it lies. -/
structure Source where
  rules : List Rule
  place : Place

/-- Those of the rules that name what lies at a place below the directory. -/
def Source.naming (target : Place) (isDir : Bool) (source : Source) : List Rule :=
  source.rules.filter (·.names (spelled (target.drop source.place.length)) isDir)

/-! ### The directories whose rules count -/

theorem ancestorsOf_append_singleton (parts : List String) (name : String) :
    Path.ancestorsOf (parts ++ [name]) = parts :: Path.ancestorsOf parts := by
  induction parts with
  | nil => rfl
  | cons first rest ih => simp [Path.ancestorsOf, ih]

theorem mem_ancestorsOf {above : List String} :
    above ∈ Path.ancestorsOf parts ↔ above <+: parts ∧ above ≠ parts := by
  induction parts using List.reverseRecOn with
  | nil => simp [Path.ancestorsOf]
  | append_singleton parts name ih =>
    rw [ancestorsOf_append_singleton, List.mem_cons, ih, List.prefix_concat_iff]
    constructor
    · rintro (rfl | ⟨inside, -⟩)
      · exact ⟨.inr (List.prefix_refl _), by simp⟩
      · refine ⟨.inr inside, fun same => ?_⟩
        have longer := inside.length_le
        simp [same] at longer
    · rintro ⟨same | inside, different⟩
      · exact absurd same different
      · by_cases same : above = parts
        · exact .inl same
        · exact .inr ⟨inside, same⟩

/-- The directory is the top of a checkout or lies below one. -/
def InCheckout (disk : Disk) (place : Place) : Prop := ∃ top, top <+: place ∧ isTop disk ⟨1, top⟩ = .ok true

theorem checkoutAbove_cases {real : Path} {above : List Path} (searched : checkoutAbove disk real = .ok above) :
    isTop disk real = .ok true ∧ above = [] ∨
      isTop disk real = .ok false ∧ ∃ found, upToTop disk real.ancestors = .ok found ∧ above = found.reverse := by
  rw [checkoutAbove] at searched
  cases asked : isTop disk real with
  | error => simp [asked, Except.bind] at searched
  | ok top =>
    rw [asked] at searched
    cases top with
    | true =>
      cases searched
      exact .inl ⟨rfl, rfl⟩
    | false =>
      cases found : upToTop disk real.ancestors with
      | error => simp [found, Except.bind, Except.map] at searched
      | ok directories =>
        rw [found] at searched
        cases searched
        exact .inr ⟨rfl, directories, rfl, rfl⟩

theorem mem_ancestors_of_checkoutAbove {real directory : Path} {above : List Path}
    (searched : checkoutAbove disk real = .ok above) (listed : directory ∈ above) : directory ∈ real.ancestors := by
  rcases checkoutAbove_cases searched with ⟨-, rfl⟩ | ⟨-, found, upwards, rfl⟩
  · cases listed
  · exact upToTop_subset upwards (List.mem_reverse.mp listed)

theorem exists_lead {directory : Path} {above : List Path} (searched : checkoutAbove disk ⟨1, place⟩ = .ok above)
    (listed : directory ∈ above) : ∃ lead, lead ≠ [] ∧ place = directory.parts ++ lead := by
  obtain ⟨parts, member, rfl⟩ := List.mem_map.mp (mem_ancestors_of_checkoutAbove searched listed)
  obtain ⟨⟨lead, whole⟩, different⟩ := mem_ancestorsOf.mp member
  refine ⟨lead, ?_, whole.symm⟩
  rintro rfl
  exact different (by simpa using whole)

/-- A directory below that is no top has the directories of its parent above it, and its parent. -/
theorem checkoutAbove_child {above : List Path} (inside : InCheckout disk place)
    (searched : checkoutAbove disk ⟨1, place⟩ = .ok above)
    (notTop : isTop disk ⟨1, place ++ [name]⟩ = .ok false) :
    checkoutAbove disk ⟨1, place ++ [name]⟩ = .ok (above ++ [⟨1, place⟩]) := by
  have ancestors : Path.ancestors ⟨1, place ++ [name]⟩ = ⟨1, place⟩ :: Path.ancestors ⟨1, place⟩ := by
    simp [Path.ancestors, ancestorsOf_append_singleton]
  rw [checkoutAbove, notTop, ancestors, upToTop]
  rcases checkoutAbove_cases searched with ⟨top, rfl⟩ | ⟨below, found, upwards, rfl⟩
  · rw [top]
    rfl
  · obtain ⟨top, prefixed, isTop⟩ := inside
    have different : top ≠ place := by
      rintro rfl
      rw [below] at isTop
      cases isTop
    have listed : (⟨1, top⟩ : Path) ∈ Path.ancestors ⟨1, place⟩ :=
      List.mem_map.mpr ⟨top, mem_ancestorsOf.mpr ⟨prefixed, different⟩, rfl⟩
    -- the search upwards ends at a top, since there is one
    have some := upToTop_of_top listed isTop upwards
    rw [below, upwards]
    simp [Except.bind, Except.map, some]

theorem InCheckout.child (inside : InCheckout disk place) (more : List String) :
    InCheckout disk (place ++ more) := by
  obtain ⟨top, above, isTop⟩ := inside
  exact ⟨top, above.trans (List.prefix_append place more), isTop⟩

theorem checkoutAbove_append {above : List Path} (inside : InCheckout disk place)
    (searched : checkoutAbove disk ⟨1, place⟩ = .ok above)
    (notTop : ∀ upper, upper ≠ [] → upper <+: parts → isTop disk ⟨1, place ++ upper⟩ = .ok false) :
    checkoutAbove disk ⟨1, place ++ parts⟩ =
      .ok (above ++ (List.range parts.length).map fun k => ⟨1, place ++ parts.take k⟩) := by
  induction parts using List.reverseRecOn with
  | nil => simpa using searched
  | append_singleton parts name ih =>
    have upper := ih fun upper some prefixed => notTop upper some (prefixed.trans (List.prefix_append _ _))
    have here : isTop disk ⟨1, place ++ parts ++ [name]⟩ = .ok false := by
      rw [List.append_assoc]
      exact notTop _ (by simp) (List.prefix_refl _)
    have upTo : (List.range parts.length).map (fun k => (⟨1, place ++ (parts ++ [name]).take k⟩ : Path)) =
        (List.range parts.length).map fun k => ⟨1, place ++ parts.take k⟩ := by
      refine List.map_congr_left fun k inside => ?_
      rw [List.take_append_of_le_length (Nat.le_of_lt (List.mem_range.mp inside))]
    rw [← List.append_assoc, checkoutAbove_child (inside.child parts) upper here, List.length_append,
      List.length_singleton, List.range_succ, List.map_append, upTo, List.append_assoc]
    simp

/-- The sources of the rules for what is in a directory below the root of a walk: the directories above the root, by
their real paths, and those from the root down, by the path of the walk. -/
def sources (disk : Disk) (above : List Path) (first : Job) (parts : List String) : List Source :=
  (above.map fun directory => ⟨(readRules disk directory).1, directory.parts⟩) ++
    (List.range (parts.length + 1)).map fun k =>
      ⟨(readRules disk (first.path.under (parts.take k))).1, first.place ++ parts.take k⟩

/-! ### The same rules name the same -/

theorem matching_eq {scope : Scope} {path seen : List Char} {isDir : Bool}
    (relative : scope.relative path = some seen) :
    scope.matching path isDir = scope.rules.filter (·.names seen isDir) := by
  rw [Scope.matching, relative]

/-- The scope of the ignore files in a directory above the root. -/
def leadScope (disk : Disk) (place : Place) (directory : Path) : Scope where
  base := []
  rules := (readRules disk directory).1
  lead := spelled (place.drop directory.parts.length)

theorem matching_leadScope {directory : Path} {above : List Path} (proper : ∀ name ∈ place, name ≠ "")
    (more : rest ≠ []) (searched : checkoutAbove disk ⟨1, place⟩ = .ok above) (listed : directory ∈ above)
    (isDir : Bool) :
    (leadScope disk place directory).matching (spelled rest) isDir =
      Source.naming (place ++ rest) isDir ⟨(readRules disk directory).1, directory.parts⟩ := by
  obtain ⟨lead, some, whole⟩ := exists_lead searched listed
  have properLead : ∀ name ∈ lead, name ≠ "" := fun name member => proper name (by simp [whole, member])
  have between : place.drop directory.parts.length = lead := by rw [whole, List.drop_left]
  have further : (place ++ rest).drop directory.parts.length = lead ++ rest := by
    rw [whole, List.append_assoc, List.drop_left]
  rw [leadScope, between, matching_eq (relative_lead some properLead more _), Source.naming, further]

/-- The first job of a walk, and the directories above its root that are in the checkout. -/
structure Opens (disk : Disk) (above : List Path) (first : Job) : Prop where
  searched : checkoutAbove disk ⟨1, first.place⟩ = .ok above
  top : first.below = []
  scopes : first.scopes = above.flatMap fun directory =>
    if (leadScope disk first.place directory).rules.isEmpty then [] else [leadScope disk first.place directory]

theorem opens_of_rootJob {logs : List Log.Record} (made : rootJob disk root place = .ok (first, logs)) :
    first.path = root ∧ first.place = place ∧ ∃ above, Opens disk above first := by
  obtain ⟨scopes, found, rfl⟩ := rootJob_eq_ok made
  refine ⟨rfl, rfl, ?_⟩
  cases searched : checkoutAbove disk ⟨1, place⟩ with
  | error => simp [scopesAbove, searched, Except.map] at found
  | ok above =>
    rw [scopesAbove, searched] at found
    cases found
    exact ⟨above, searched, rfl, rfl⟩

theorem rootJob_of_checkoutAbove {above : List Path} (searched : checkoutAbove disk ⟨1, place⟩ = .ok above)
    (root : Path) : ∃ first logs, rootJob disk root place = .ok (first, logs) ∧ first.path = root ∧
      first.place = place ∧ Opens disk above first := by
  have made : ∃ first logs, rootJob disk root place = .ok (first, logs) := by
    rw [rootJob, scopesAbove, searched]
    exact ⟨_, _, rfl⟩
  obtain ⟨first, logs, made⟩ := made
  obtain ⟨path, lies, found, opens⟩ := opens_of_rootJob made
  have again := opens.searched
  rw [lies, searched] at again
  cases again
  exact ⟨first, logs, made, path, lies, opens⟩

theorem matching_scopesAbove {above : List Path} (opens : Opens disk above first)
    (proper : ∀ name ∈ first.place, name ≠ "") (more : rest ≠ []) (isDir : Bool) :
    first.scopes.flatMap (·.matching (spelled rest) isDir) =
      (above.map fun directory => (⟨(readRules disk directory).1, directory.parts⟩ : Source)).flatMap
        (Source.naming (first.place ++ rest) isDir) := by
  rw [opens.scopes, List.flatMap_assoc, List.flatMap_map]
  refine List.flatMap_congr fun directory listed => ?_
  rw [flatMap_matching, matching_leadScope proper more opens.searched listed]

theorem matching_ownScope (disk : Disk) (first : Job) (proper : ∀ name ∈ parts, name ≠ "") (more : rest ≠ [])
    (isDir : Bool) :
    (ownScope disk first.path parts).matching (spelled (parts ++ rest)) isDir =
      Source.naming (first.place ++ parts ++ rest) isDir
        ⟨(readRules disk (first.path.under parts)).1, first.place ++ parts⟩ := by
  rw [ownScope, matching_eq (relative_base proper more _), Source.naming, List.drop_left]

theorem matching_excludeScope (unexcluded : options.excluded = []) (path : List Char) (isDir : Bool) :
    (excludeScope options).matching path isDir = [] := by
  have none : (excludeScope options).rules = [] := by
    simp [excludeScope, unexcluded, parseLines]
  rw [Scope.matching, none]
  split <;> rfl

/-- The scopes for what is in a directory name it as the rules of the directories above it do. -/
theorem matching_scopesOver {above : List Path} (opens : Opens disk above first)
    (unexcluded : options.excluded = []) (found : disk.item? (first.place ++ parts) = some .directory)
    (name : String) (isDir : Bool) :
    (scopesOver disk options first parts).flatMap (·.matching (spelled (parts ++ [name])) isDir) =
      (sources disk above first parts).flatMap (Source.naming (first.place ++ parts ++ [name]) isDir) := by
  have proper : ∀ name ∈ first.place ++ parts, name ≠ "" := fun name member =>
    (Disk.named_of_item? found name member).1
  have own : ∀ k, (ownScope disk first.path (parts.take k)).matching (spelled (parts ++ [name])) isDir =
      Source.naming (first.place ++ parts ++ [name]) isDir
        ⟨(readRules disk (first.path.under (parts.take k))).1, first.place ++ parts.take k⟩ := by
    intro k
    have properAbove : ∀ name ∈ parts.take k, name ≠ "" := fun name member =>
      proper name (List.mem_append_right _ (List.mem_of_mem_take member))
    have split := matching_ownScope disk first properAbove (show parts.drop k ++ [name] ≠ [] by simp) isDir
    have sameName : parts.take k ++ (parts.drop k ++ [name]) = parts ++ [name] := by
      rw [← List.append_assoc, List.take_append_drop]
    rwa [List.append_assoc first.place, sameName, ← List.append_assoc first.place] at split
  have upper := matching_scopesAbove opens (fun name member => proper name (List.mem_append_left _ member))
    (show parts ++ [name] ≠ [] by simp) isDir
  rw [← List.append_assoc] at upper
  have top := own 0
  rw [List.take_zero] at top
  rw [scopesOver, sources, List.flatMap_append, List.flatMap_append, List.flatMap_append, upper,
    List.range_succ_eq_map, List.map_cons, List.flatMap_cons, List.map_map]
  simp only [List.flatMap_cons, List.flatMap_nil, List.flatMap_map, top, matching_excludeScope unexcluded, own,
    Function.comp_apply, Nat.succ_eq_add_one, List.append_nil, List.append_assoc, List.take_zero]

/-! ### The walk of the part -/

/-- A directory that a walk enters, in the same checkout as the root of the walk. All directories from the root
down to it can be asked whether they are tops, and above it the ignore files give the same rules on the path of the
walk as on their real paths. -/
structure PartOf (disk : Disk) (options : Options) (first : Job) (parts : List String) : Prop where
  inside : InCheckout disk first.place
  entered : Entered disk options first parts
  notTop : ∀ upper, upper ≠ [] → upper <+: parts → isTop disk ⟨1, first.place ++ upper⟩ = .ok false
  sameRules : ∀ upper, upper <+: parts → upper ≠ parts →
    (readRules disk (first.path.under upper)).1 = (readRules disk ⟨1, first.place ++ upper⟩).1

/-- The second job begins a walk of the directory, and that walk keeps the same names there. -/
structure SeenAlike (disk : Disk) (options : Options) (first : Job) (parts : List String) (second : Job) :
    Prop where
  path : second.path = first.path.under parts
  place : second.place = first.place ++ parts
  top : second.below = []
  ignored : ∀ rest name isDir, disk.item? (first.place ++ (parts ++ rest)) = some .directory →
    ignored (spelled (rest ++ [name])) isDir (scopesOver disk options second rest) =
      ignored (spelled (parts ++ rest ++ [name])) isDir (scopesOver disk options first (parts ++ rest))

theorem under_under (root : Path) (parts rest : List String) :
    (root.under parts).under rest = root.under (parts ++ rest) := by
  simp [Path.under]

theorem sources_append {above : List Path} (part : PartOf disk options first parts)
    (path : second.path = first.path.under parts) (place : second.place = first.place ++ parts)
    (rest : List String) :
    sources disk (above ++ (List.range parts.length).map fun k => ⟨1, first.place ++ parts.take k⟩) second rest =
      sources disk above first (parts ++ rest) := by
  have upper : ∀ k ∈ List.range parts.length,
      (⟨(readRules disk (first.path.under ((parts ++ rest).take k))).1,
        first.place ++ (parts ++ rest).take k⟩ : Source) =
      ⟨(readRules disk ⟨1, first.place ++ parts.take k⟩).1, first.place ++ parts.take k⟩ := by
    intro k inside
    have short := List.mem_range.mp inside
    have proper : parts.take k ≠ parts := fun same => by
      have length := congrArg List.length same
      rw [List.length_take] at length
      omega
    rw [List.take_append_of_le_length (Nat.le_of_lt short),
      part.sameRules _ (List.take_prefix k parts) proper]
  have lower : ∀ k ∈ List.range (rest.length + 1),
      ((fun k => (⟨(readRules disk (first.path.under ((parts ++ rest).take k))).1,
        first.place ++ (parts ++ rest).take k⟩ : Source)) ∘ fun k => parts.length + k) k =
      ⟨(readRules disk (second.path.under (rest.take k))).1, second.place ++ rest.take k⟩ := by
    intro k _
    rw [Function.comp_apply, List.take_length_add_append, path, place, under_under, List.append_assoc]
  have range : List.range (parts.length + (rest.length + 1)) = _ := List.range_add
  rw [sources, sources, List.length_append, Nat.add_assoc, range, List.map_append, List.map_append,
    List.map_map, List.map_map, List.map_congr_left upper, List.map_congr_left lower, List.append_assoc]
  rfl

/-- A walk of the part begins, and sees what the walk from above sees there. -/
theorem seenAlike_of_part {above : List Path} (opens : Opens disk above first) (unexcluded : options.excluded = [])
    (part : PartOf disk options first parts) :
    ∃ second logs, rootJob disk (first.path.under parts) (first.place ++ parts) = .ok (second, logs) ∧
      SeenAlike disk options first parts second := by
  have searched := checkoutAbove_append part.inside opens.searched part.notTop
  obtain ⟨second, logs, made, path, place, opensPart⟩ := rootJob_of_checkoutAbove searched (first.path.under parts)
  refine ⟨second, logs, made, path, place, opensPart.top, fun rest name isDir found => ?_⟩
  have foundPart : disk.item? (second.place ++ rest) = some .directory := by
    rwa [place, List.append_assoc]
  rw [Ignore.ignored, Ignore.ignored, matching_scopesOver opensPart unexcluded foundPart,
    matching_scopesOver opens unexcluded found, sources_append part path place, place, List.append_assoc first.place]

theorem Entered.isDir (isDir : disk.item? first.place = some .directory)
    (entered : Entered disk options first parts) : disk.item? (first.place ++ parts) = some .directory := by
  cases entered with
  | root => simpa using isDir
  | child _ found _ => simpa using found

theorem passes_under {isDir : Bool} (alike : SeenAlike disk options first parts second)
    (found : disk.item? (first.place ++ (parts ++ rest)) = some .directory) :
    Passes disk options second rest name isDir ↔ Passes disk options first (parts ++ rest) name isDir := by
  have kept := alike.ignored rest name isDir found
  constructor
  · rintro ⟨tracked, shown, unlinked, listable, notIgnored⟩
    refine ⟨tracked, shown, ?_, ?_, kept ▸ notIgnored⟩
    · rwa [alike.place, List.append_assoc first.place] at unlinked
    · rwa [alike.path, under_under] at listable
  · rintro ⟨tracked, shown, unlinked, listable, notIgnored⟩
    refine ⟨tracked, shown, ?_, ?_, kept ▸ notIgnored⟩
    · rwa [alike.place, List.append_assoc first.place]
    · rwa [alike.path, under_under]

theorem entered_under (alike : SeenAlike disk options first parts second)
    (isDir : disk.item? first.place = some .directory) (above : Entered disk options first parts)
    (entered : Entered disk options second rest) : Entered disk options first (parts ++ rest) := by
  induction entered with
  | root => simpa using above
  | child _ found passes ih =>
    rw [← List.append_assoc]
    refine ih.child ?_ ((passes_under alike (ih.isDir isDir)).mp passes)
    rwa [← List.append_assoc, ← alike.place]

/-- The two jobs are for the same directory under the same path, and keep the same names in it. -/
structure Alike (disk : Disk) (options : Options) (left right : Job) : Prop where
  path : left.path = right.path
  place : left.place = right.place
  ignored : ∀ name isDir, ignored (belowOf left name) isDir (scopesAt disk options left) =
    ignored (belowOf right name) isDir (scopesAt disk options right)

theorem Alike.directoryNames {left right : Job} (alike : Alike disk options left right) :
    directoryNames disk options left = directoryNames disk options right := by
  simp only [Walk.directoryNames, listedNames, alike.path, alike.place, alike.ignored]

theorem Alike.ownEntries {left right : Job} (links : options.followLinks = false)
    (alike : Alike disk options left right) :
    ownEntries disk options left = ownEntries disk options right := by
  rw [ownEntries_eq links, ownEntries_eq links]
  simp only [fileNames, barredEntry, listedNames, alike.path, alike.place, alike.ignored]

theorem alike_under (top : first.below = []) (alike : SeenAlike disk options first parts second)
    (isDir : disk.item? first.place = some .directory) (above : Entered disk options first parts)
    (entered : Entered disk options second rest) :
    Alike disk options (jobAt disk options second rest) (jobAt disk options first (parts ++ rest)) := by
  have whole := entered_under alike isDir above entered
  have stands := entered.stands alike.top
  have standsWhole := whole.stands top
  refine ⟨?_, ?_, fun name isFolder => ?_⟩
  · rw [stands.called, standsWhole.called, alike.path, under_under]
  · rw [stands.lies, standsWhole.lies, alike.place, List.append_assoc]
  · have same := alike.ignored rest name isFolder (whole.isDir isDir)
    rw [ignored, ignored] at same ⊢
    rw [stands.scopes, standsWhole.scopes, belowOf_eq stands, belowOf_eq standsWhole, same]

/-- From the directory of the part on, both walks hand out the same. -/
theorem entries_under (links : options.followLinks = false) (top : first.below = [])
    (alike : SeenAlike disk options first parts second) (isDir : disk.item? first.place = some .directory)
    (above : Entered disk options first parts) {directories : List (List String)}
    (entered : ∀ rest ∈ directories, Entered disk options second rest) :
    (reached disk options (directories.map (jobAt disk options second))).flatMap (ownEntries disk options) =
      (reached disk options (directories.map fun rest => jobAt disk options first (parts ++ rest))).flatMap
        (ownEntries disk options) := by
  -- as for the order of a scan, what is left weighs less
  induction fuel : weight disk (directories.map (jobAt disk options second))
    using Nat.strongRecOn generalizing directories with
  | ind fuel ih =>
    cases directories with
    | nil => rfl
    | cons rest others =>
      have here := entered rest (by simp)
      have same := alike_under top alike isDir above here
      have stands := here.stands alike.top
      have inner := subjobs_jobAt links disk second rest
      have innerWhole := subjobs_jobAt links disk first (parts ++ rest)
      have less := weight_expanded_lt links disk (jobAt disk options second rest)
        (others.map (jobAt disk options second))
      rw [inner, ← List.map_append] at less
      rw [List.map_cons] at fuel
      have below : ∀ next ∈ (directoryNames disk options (jobAt disk options second rest)).map
          (fun name => rest ++ [name]) ++ others, Entered disk options second next := by
        intro next member
        rcases List.mem_append.mp member with child | other
        · obtain ⟨name, listed, rfl⟩ := List.mem_map.mp child
          obtain ⟨isFolder, passes⟩ := (mem_directoryNames_iff stands).mp listed
          exact here.child isFolder passes
        · exact entered next (by simp [other])
      have next := ih _ (fuel ▸ less) below rfl
      rw [List.map_append, List.map_append] at next
      rw [List.map_cons, List.map_cons, reached_cons links, reached_cons links, List.flatMap_cons,
        List.flatMap_cons, same.ownEntries links, inner, innerWhole, next, ← same.directoryNames]
      simp only [List.map_map, Function.comp_def, List.append_assoc]

/-- What a walk reaches from a directory that it enters is one stretch of all that it reaches. -/
theorem reached_split (links : options.followLinks = false) (top : first.below = [])
    (entered : Entered disk options first parts) :
    ∃ before after, reached disk options [first] =
      before ++ reached disk options [jobAt disk options first parts] ++ after := by
  induction entered with
  | root => exact ⟨[], [], by simp [jobAt]⟩
  | @child parts name above isDir passes ih =>
    obtain ⟨before, after, whole⟩ := ih
    have listed := (mem_directoryNames_iff (above.stands top)).mpr ⟨isDir, passes⟩
    obtain ⟨left, right, names⟩ := List.append_of_mem listed
    have inner := subjobs_jobAt links disk first parts
    rw [names, List.map_append, List.map_cons, List.map_append, List.map_cons] at inner
    have here : reached disk options [jobAt disk options first parts] = _ :=
      reached_cons links (jobAt disk options first parts) []
    have apart : reached disk options (jobAt disk options first (parts ++ [name]) ::
        (right.map fun name => parts ++ [name]).map (jobAt disk options first)) = _ :=
      reached_append links [jobAt disk options first (parts ++ [name])] _
    rw [List.append_nil, inner, reached_append links, apart] at here
    refine ⟨before ++ jobAt disk options first parts :: reached disk options
      ((left.map fun name => parts ++ [name]).map (jobAt disk options first)), reached disk options
      ((right.map fun name => parts ++ [name]).map (jobAt disk options first)) ++ after, ?_⟩
    rw [whole, here]
    simp

/-! ### Which entries lie in the part -/

/-- The path of what an entry tells about. -/
def Entry.path : Entry → Path
  | .file path => path
  | .failure path _ => path

theorem holds_under_iff : (root.under parts).holds (root.under rest) = true ↔ parts <+: rest := by
  simp [Path.holds, Path.under, List.prefix_append_right_inj]

theorem readRules_snd {path : Path} {entry : Entry} (given : entry ∈ (readRules disk path).2) :
    ∃ name ∈ ignoreFileNames, ∃ fault, entry = .failure (path.child name) fault := by
  obtain ⟨name, listed, given⟩ := List.mem_flatMap.mp given
  rcases readIgnoreFile_failures disk (path.child name) with none | ⟨fault, one⟩
  · simp [none] at given
  · rw [one] at given
    exact ⟨name, listed, fault, List.mem_singleton.mp given⟩

/-- What a directory gives is about an ignore file in it, about itself, or a file in it. -/
theorem ownEntries_cases {entry : Entry} (links : options.followLinks = false) (top : first.below = [])
    (entered : Entered disk options first parts)
    (given : entry ∈ ownEntries disk options (jobAt disk options first parts)) :
    (∃ name ∈ ignoreFileNames, ∃ fault, entry = .failure (first.path.under (parts ++ [name])) fault) ∨
    entry.path = first.path.under parts ∨
    ∃ name bytes, disk.item? (first.place ++ parts ++ [name]) = some (.file bytes) ∧
      entry = .file (first.path.under (parts ++ [name])) := by
  have stands := entered.stands top
  rw [ownEntries_of_stands links stands, List.mem_append, List.mem_append] at given
  rcases given with (unread | barred) | file
  · obtain ⟨name, listed, fault, rfl⟩ := readRules_snd unread
    exact .inl ⟨name, listed, fault, by rw [child_under]⟩
  · obtain ⟨fault, -, rfl⟩ := List.mem_map.mp barred
    exact .inr (.inl rfl)
  · obtain ⟨name, listed, rfl⟩ := List.mem_map.mp file
    obtain ⟨bytes, found, -⟩ := (mem_fileNames_iff stands).mp listed
    exact .inr (.inr ⟨name, bytes, found, rfl⟩)

theorem holds_of_inside {entry : Entry} (links : options.followLinks = false) (top : first.below = [])
    (entered : Entered disk options first rest) (inside : parts <+: rest)
    (given : entry ∈ ownEntries disk options (jobAt disk options first rest)) :
    (first.path.under parts).holds entry.path = true := by
  have further : ∀ name, parts <+: rest ++ [name] := fun name => inside.trans (List.prefix_append _ _)
  rcases ownEntries_cases links top entered given with
    ⟨name, -, fault, rfl⟩ | called | ⟨name, bytes, -, rfl⟩
  · exact holds_under_iff.mpr (further name)
  · rw [called]
    exact holds_under_iff.mpr inside
  · exact holds_under_iff.mpr (further name)

/-- A directory outside gives nothing at or beneath a directory, but that this is no ignore file. -/
theorem failure_of_outside {entry : Entry} (links : options.followLinks = false) (top : first.below = [])
    (isDir : disk.item? (first.place ++ parts) = some .directory)
    (entered : Entered disk options first rest) (outside : ¬ parts <+: rest)
    (given : entry ∈ ownEntries disk options (jobAt disk options first rest))
    (holds : (first.path.under parts).holds entry.path = true) :
    ∃ name fault, name ∈ ignoreFileNames ∧ parts.getLast? = some name ∧
      entry = .failure (first.path.under parts) fault := by
  -- the only path beneath the directory that one outside can give is that of the directory itself
  have itself : ∀ name, parts <+: rest ++ [name] → parts = rest ++ [name] := fun name inside =>
    (List.prefix_concat_iff.mp inside).resolve_right outside
  rcases ownEntries_cases links top entered given with
    ⟨name, listed, fault, rfl⟩ | called | ⟨name, bytes, found, rfl⟩
  · have same := itself name (holds_under_iff.mp holds)
    exact ⟨name, fault, listed, by simp [same], by rw [same]⟩
  · rw [called] at holds
    exact absurd (holds_under_iff.mp holds) outside
  · have same := itself name (holds_under_iff.mp holds)
    rw [same, ← List.append_assoc, found] at isDir
    cases isDir

theorem descends_jobAt (links : options.followLinks = false) (top : first.below = [])
    (entered : Entered disk options first (parts ++ rest)) :
    Descends disk options (jobAt disk options first parts) (jobAt disk options first (parts ++ rest)) := by
  induction rest using List.reverseRecOn with
  | nil =>
    rw [List.append_nil]
    exact .refl
  | append_singleton rest name ih =>
    rw [← List.append_assoc] at entered ⊢
    obtain ⟨above, isDir, passes⟩ : Entered disk options first (parts ++ rest) ∧
        disk.item? (first.place ++ (parts ++ rest) ++ [name]) = some .directory ∧
        Passes disk options first (parts ++ rest) name true := by
      generalize whole : parts ++ rest ++ [name] = all at entered
      cases entered with
      | root => simp at whole
      | child above isDir passes =>
        obtain ⟨rfl, same⟩ := List.append_inj' whole rfl
        obtain rfl : name = _ := by simpa using same
        exact ⟨above, isDir, passes⟩
    refine (ih above).tail ?_
    exact (mem_subjobs_iff links (above.stands top)).mpr ⟨name, isDir, passes, jobAt_append _ _⟩

/-! ### Both scans -/

/-- Where the root leads, a directory that the walk enters lies below. -/
theorem lookup_under (found : disk.lookup first.path = .ok (first.place, .directory))
    (entered : Entered disk options first parts)
    (named : disk.isDirectory (first.path.under parts) = .ok true) :
    disk.lookup (first.path.under parts) = .ok (first.place ++ parts, .directory) := by
  obtain ⟨leads, isDir⟩ := Disk.lookup_eq_ok found
  have reaches : disk.Reaches first.path first.place parts := ⟨leads, entered.isDir isDir⟩
  obtain ⟨other, lookedUp⟩ : ∃ other, disk.lookup (first.path.under parts) = .ok (other, .directory) := by
    unfold Disk.isDirectory Disk.asks at named
    split at named
    · rename_i other item lookedUp
      obtain rfl : item = .directory := by simpa using named
      exact ⟨other, lookedUp⟩
    · split at named <;> cases named
  rw [lookedUp, reaches.placeOf_eq_ok (Disk.lookup_eq_ok lookedUp).1]

theorem scan_of_start {visited : List Place} {logs : List Log.Record} (links : options.followLinks = false)
    (begins : start disk options root = .ok (.tree first visited logs)) :
    ∃ batches, scan disk options root = .ok batches ∧
      batches.flatMap Batch.entries = (reached disk options [first]).flatMap (ownEntries disk options) := by
  have scanned : scan disk options root = .ok (⟨logs, []⟩ ::
      scanJobs disk options (enough disk) [first] visited) := by
    rw [scan, begins]
    rfl
  exact ⟨_, scanned, scan_entries links begins scanned⟩

/-- Beside what is reached from a directory, a walk reaches only directories that do not lie in it. -/
theorem outside_of_split {before after : List Job} (links : options.followLinks = false) (top : first.below = [])
    (whole : reached disk options [first] =
      before ++ reached disk options [jobAt disk options first parts] ++ after)
    {job : Job} (beside : job ∈ before ++ after) :
    ∃ rest, Entered disk options first rest ∧ job = jobAt disk options first rest ∧ ¬ parts <+: rest := by
  have listed : job ∈ reached disk options [first] := by
    rw [whole]
    rcases List.mem_append.mp beside with left | right <;> simp [*]
  obtain ⟨rest, entered, rfl⟩ := (mem_reached_root_iff links top).mp listed
  refine ⟨rest, entered, rfl, ?_⟩
  rintro ⟨more, rfl⟩
  -- it would be reached twice
  have inside : jobAt disk options first (parts ++ more) ∈
      reached disk options [jobAt disk options first parts] :=
    (mem_reached_iff links).mpr ⟨_, List.mem_singleton_self _, descends_jobAt links top entered⟩
  have once := nodup_reached links disk (List.pairwise_singleton Apart first)
  rw [whole, List.append_assoc, List.map_append, List.map_append] at once
  obtain ⟨-, inner, apartBefore⟩ := List.nodup_append.mp once
  obtain ⟨-, -, apartAfter⟩ := List.nodup_append.mp inner
  have again := List.mem_map_of_mem (f := Job.place) inside
  rcases List.mem_append.mp beside with left | right
  · exact apartBefore _ (List.mem_map_of_mem left) _ (List.mem_append_left _ again) rfl
  · exact apartAfter _ again _ (List.mem_map_of_mem right) rfl

/-- A checkout with rules at its top and in a directory, some of them for paths through that directory. -/
def nestedRules : Disk where
  items := [(["src"], .directory), (["src", ".git"], .directory),
    (["src", ".gitignore"], .file "*.log\n/lib/made/\nlib/**/tmp.rs\n".toUTF8.toList),
    (["src", "b.rs"], .file []), (["src", "lib"], .directory),
    (["src", "lib", ".gitignore"], .file "!keep.log\n".toUTF8.toList), (["src", "lib", "a.rs"], .file []),
    (["src", "lib", "keep.log"], .file []), (["src", "lib", "run.log"], .file []),
    (["src", "lib", "made"], .directory), (["src", "lib", "made", "c.rs"], .file []),
    (["src", "lib", "deep"], .directory), (["src", "lib", "deep", "tmp.rs"], .file []),
    (["src", "lib", "deep", "d.rs"], .file [])]
  here := []
  home := "/"
  locked := []
  sealed := []
  tree := by decide

/-- The walk of a top of a checkout by its real path enters a directory there. -/
theorem partOf_top (real : first.path = ⟨1, first.place⟩) (top : isTop disk ⟨1, first.place⟩ = .ok true)
    (isDir : disk.item? (first.place ++ [name]) = some .directory) (passes : Passes disk options first [] name true)
    (notTop : isTop disk ⟨1, first.place ++ [name]⟩ = .ok false) : PartOf disk options first [name] := by
  refine ⟨⟨first.place, List.prefix_refl _, top⟩, .child .root (by simpa using isDir) passes, ?_, ?_⟩
  · intro upper some prefixed
    have within : upper <+: [] ++ [name] := prefixed
    rcases List.prefix_concat_iff.mp within with rfl | none
    · exact notTop
    · exact absurd (List.prefix_nil.mp none) some
  · intro upper _ _
    rw [real]
    rfl

def srcRoot : Job := { path := ⟨1, ["src"]⟩, place := ["src"], below := [], scopes := [] }

theorem partOf_nestedRules : PartOf nestedRules {} srcRoot ["lib"] := by
  have top : isTop nestedRules ⟨1, ["src"]⟩ = .ok true := by decide +kernel
  have below : isTop nestedRules ⟨1, ["src", "lib"]⟩ = .ok false := by decide +kernel
  have passes : Passes nestedRules {} srcRoot [] "lib" true :=
    ⟨by decide, .inr (by decide +kernel), by decide +kernel, by decide +kernel, by decide +kernel⟩
  exact partOf_top rfl top (by decide) passes below

/-- A checkout with a directory that is called like an ignore file. -/
def misnamed : Disk where
  items := [(["src"], .directory), (["src", ".git"], .directory), (["src", ".gitignore"], .directory),
    (["src", ".gitignore", "a.rs"], .file []), (["src", "b.rs"], .file [])]
  here := []
  home := "/"
  locked := []
  sealed := []
  tree := by decide

end Walk

end SyntaxTally
