import SyntaxTally.Proofs.Ignore.Rule
import SyntaxTally.Proofs.Walk.Account
import SyntaxTally.Proofs.Walk.Part

/-!
# Layers of scopes

The scopes of a job lie in layers: those of the checkout above the root, from its top down, and then those of the
directories on the way from the root to the job (`Layered`). A job hands them down to the jobs below it together with
those of its own directory (`Layered.down`), so it is with every job of a scan and of a walk with threads. The last
rule that names a path decides about it, hence no layer counts above one that has such a rule.
-/
namespace SyntaxTally

open Files Ignore

namespace Ignore

variable {path : List Char} {isDir : Bool} {scopes shallow deeper others : List Scope}

/-! ### The last rule decides -/

/-- The rules of the scopes in their order, each with its scope. -/
def rulesIn (scopes : List Scope) : List (Scope × Rule) :=
  scopes.flatMap fun scope => scope.rules.map (Prod.mk scope)

/-- The rule names the path, as its scope sees it. -/
def namedBy (path : List Char) (isDir : Bool) (entry : Scope × Rule) : Bool :=
  (entry.1.relative path).any (entry.2.names · isDir)

theorem matching_eq_filter (scope : Scope) : scope.matching path isDir =
    ((scope.rules.map (Prod.mk scope)).filter (namedBy path isDir)).map Prod.snd := by
  unfold Scope.matching
  rw [List.filter_map, List.map_map]
  cases seen : scope.relative path with
  | none => simp [namedBy, seen]
  | some relative =>
    have same : (namedBy path isDir ∘ Prod.mk scope) = (·.names relative isDir) := by
      funext rule
      simp [namedBy, seen]
    rw [same]
    exact (List.map_id _).symm

theorem flatMap_matching_eq : scopes.flatMap (·.matching path isDir) =
    ((rulesIn scopes).filter (namedBy path isDir)).map Prod.snd := by
  rw [rulesIn, List.filter_flatMap, List.map_flatMap]
  exact List.flatMap_congr fun scope _ => matching_eq_filter scope

/-- The path is kept if no rule names it, and else the last rule that does decides. -/
theorem ignored_cases (path : List Char) (isDir : Bool) (scopes : List Scope) :
    (∀ entry ∈ rulesIn scopes, namedBy path isDir entry = false) ∧ ignored path isDir scopes = false ∨
    ∃ before scope rule after, rulesIn scopes = before ++ (scope, rule) :: after ∧
      namedBy path isDir (scope, rule) = true ∧ (∀ later ∈ after, namedBy path isDir later = false) ∧
      ignored path isDir scopes = !rule.negate := by
  unfold ignored
  rw [flatMap_matching_eq, List.getLast?_map]
  cases last : ((rulesIn scopes).filter (namedBy path isDir)).getLast? with
  | none =>
    refine .inl ⟨?_, rfl⟩
    intro entry listed
    have none := List.filter_eq_nil_iff.mp (List.getLast?_eq_none_iff.mp last) entry listed
    simpa using none
  | some entry =>
    obtain ⟨scope, rule⟩ := entry
    obtain ⟨before, after, whole, names, unnamed⟩ := getLast?_filter_iff.mp last
    exact .inr ⟨before, scope, rule, after, whole, names, unnamed, rfl⟩

theorem ignored_of_deeper {entry : Scope × Rule} (listed : entry ∈ rulesIn deeper)
    (names : namedBy path isDir entry = true) (shallow : List Scope) :
    ignored path isDir (shallow ++ deeper) = ignored path isDir deeper := by
  have some : deeper.flatMap (·.matching path isDir) ≠ [] := by
    rw [flatMap_matching_eq]
    intro none
    have gone := List.filter_eq_nil_iff.mp (List.map_eq_nil_iff.mp none) entry listed
    exact gone names
  unfold ignored
  rw [List.flatMap_append, List.getLast?_append_of_ne_nil _ some]

end Ignore

namespace Walk

variable {disk : Disk} {options : Options} {root : Path} {place : Place} {above : List Path} {first job child : Job}
  {names : List String} {parents : List Job} {name : String}

/-! ### Scopes by layers -/

/-- The rules of a directory as a scope, if there are any. -/
def scopeOf (base lead : List String) (rules : List Rule) : List Scope :=
  if rules.isEmpty then [] else [{ base := spelled base, rules, lead := spelled lead }]

/-- The scopes of directories above the root, each given by the names that lead from it to the root and by its rules. -/
def scopesUp (above : List (List String × List Rule)) : List Scope :=
  above.flatMap fun directory => scopeOf [] directory.1 directory.2

/-- The scopes of the directories from the root down, given by their rules. The names lead from each to the next. What
is excluded comes directly behind the rules of the root. -/
def scopesDown (excluded : List Rule) (names : List String) (rules : List (List Rule)) : List Scope :=
  rules.zipIdx.flatMap fun directory =>
    scopeOf (names.take directory.2) [] directory.1 ++ if directory.2 = 0 then scopeOf [] [] excluded else []

/-- The directories of a checkout above a place, with the names that lead from each to the place. -/
def layersAbove (disk : Disk) (above : List Path) (place : Place) : List (List String × List Rule) :=
  above.map fun directory => (place.drop directory.parts.length, (readRules disk directory).1)

/-- The rules of the ignore files that a walk reads for a job. -/
def rulesFor (disk : Disk) (job : Job) : List Rule := (readRules disk job.path).1

def excludedRules (options : Options) : List Rule := parseLines (options.excluded.map String.toList)

/-- The scopes of a job: it was found by these names in the directories of these jobs, one after the other. -/
structure Layered (disk : Disk) (options : Options) (above : List Path) (place : Place) (names : List String)
    (parents : List Job) (job : Job) : Prop where
  even : parents.length = names.length
  proper : ∀ name ∈ names, IsName name
  spells : job.below = spelled names
  scopes : job.scopes = scopesUp (layersAbove disk above place) ++
    scopesDown (excludedRules options) names (parents.map (rulesFor disk))

theorem scopesUp_layersAbove (opens : Opens disk above first) :
    scopesUp (layersAbove disk above first.place) = first.scopes := by
  rw [opens.scopes, scopesUp, layersAbove, List.flatMap_map]
  rfl

theorem scopesDown_append (excluded : List Rule) (names : List String) (rules : List (List Rule)) (own : List Rule) :
    scopesDown excluded names (rules ++ [own]) = scopesDown excluded names rules ++
      (scopeOf (names.take rules.length) [] own ++ if rules.length = 0 then scopeOf [] [] excluded else []) := by
  rw [scopesDown, List.zipIdx_append, List.flatMap_append]
  simp [scopesDown]

theorem scopesDown_more (excluded : List Rule) (more : List String) {rules : List (List Rule)}
    (enough : rules.length ≤ names.length + 1) :
    scopesDown excluded (names ++ more) rules = scopesDown excluded names rules := by
  refine List.flatMap_congr fun directory listed => ?_
  -- the last directory is the one that all the names lead to
  have inside : directory.2 < rules.length := List.snd_lt_of_mem_zipIdx listed
  rw [List.take_append_of_le_length (by omega)]

theorem Layered.belowOf_eq (layered : Layered disk options above place names parents job) (name : String) :
    belowOf job name = spelled (names ++ [name]) := by
  have proper : ∀ name ∈ names, name ≠ "" := fun name member => (layered.proper name member).1
  unfold belowOf
  rw [layered.spells]
  split
  · rename_i empty
    obtain rfl := (spelled_eq_nil_iff proper).mp (List.isEmpty_iff.mp empty)
    simp [spelled, joined]
  · rename_i full
    have some : names ≠ [] := fun none => full (List.isEmpty_iff.mpr ((spelled_eq_nil_iff proper).mpr none))
    rw [spelled_append_singleton some]

theorem Layered.scopesAt_eq (layered : Layered disk options above place names parents job) :
    scopesAt disk options job = scopesUp (layersAbove disk above place) ++
      scopesDown (excludedRules options) names ((parents ++ [job]).map (rulesFor disk)) := by
  have proper : ∀ name ∈ names, name ≠ "" := fun name member => (layered.proper name member).1
  have atRoot : job.below.isEmpty = true ↔ names.length = 0 := by
    rw [layered.spells, List.isEmpty_iff, spelled_eq_nil_iff proper, List.length_eq_zero_iff]
  have own : (if (readRules disk job.path).1.isEmpty = true then []
      else [{ base := job.below, rules := (readRules disk job.path).1 }]) = scopeOf names [] (rulesFor disk job) := by
    rw [layered.spells]
    rfl
  have excluded : (if (job.below.isEmpty && !(excludeScope options).rules.isEmpty) = true then [excludeScope options]
      else []) = if names.length = 0 then scopeOf [] [] (excludedRules options) else [] := by
    by_cases top : names.length = 0
    · rw [if_pos top, atRoot.mpr top, Bool.true_and, scopeOf]
      show _ = if (excludeScope options).rules.isEmpty = true then [] else [excludeScope options]
      cases (excludeScope options).rules.isEmpty <;> rfl
    · rw [if_neg top, Bool.eq_false_iff.mpr fun empty => top (atRoot.mp empty)]
      rfl
  unfold scopesAt scopesIn
  rw [own, excluded, layered.scopes, List.map_append, List.map_singleton, scopesDown_append,
    List.length_map, layered.even, List.take_length, List.append_assoc, List.append_assoc]

theorem layered_root (opens : Opens disk above first) : Layered disk options above first.place [] [] first where
  even := rfl
  proper := nofun
  spells := opens.top
  scopes := by
    rw [scopesUp_layersAbove opens]
    exact (List.append_nil _).symm

/-- A job has the layers of the job above it and that of its directory. -/
theorem Layered.down (layered : Layered disk options above place names parents job)
    (listed : name ∈ listedNames disk job)
    (inside : child ∈ childJobs disk options job (scopesAt disk options job) name) :
    Layered disk options above place (names ++ [name]) (parents ++ [job]) child := by
  obtain ⟨-, -, goal, -, -, -, rfl⟩ := mem_childJobs.mp inside
  obtain ⟨item, found⟩ := Option.isSome_iff_exists.mp (Disk.mem_namesIn_iff_item?.mp (listedNames_subset listed))
  have named := Disk.isName_of_item? found
  refine ⟨?_, ?_, layered.belowOf_eq name, ?_⟩
  · rw [List.length_append, List.length_append, layered.even]
    rfl
  · intro other member
    rcases List.mem_append.mp member with above | last
    · exact layered.proper other above
    · obtain rfl := List.mem_singleton.mp last
      exact named
  · rw [layered.scopesAt_eq, scopesDown_more]
    rw [List.length_map, List.length_append, layered.even]
    rfl

/-! ### Ways down -/

/-- The way from the first job to another: the names by which it was found, and the jobs for the directories that they
were found in. -/
inductive Way (disk : Disk) (options : Options) (first : Job) : List String → List Job → Job → Prop where
  | start : Way disk options first [] [] first
  | down {names : List String} {parents : List Job} {job child : Job} {name : String}
    (way : Way disk options first names parents job) (listed : name ∈ listedNames disk job)
    (inside : child ∈ childJobs disk options job (scopesAt disk options job) name) :
    Way disk options first (names ++ [name]) (parents ++ [job]) child

def OnWay (disk : Disk) (options : Options) (first job : Job) : Prop :=
  ∃ names parents, Way disk options first names parents job

theorem Way.layered (begun : Layered disk options above place [] [] first)
    (way : Way disk options first names parents job) : Layered disk options above place names parents job := by
  induction way with
  | start => exact begun
  | down _ listed inside ih => exact ih.down listed inside

theorem OnWay.down (onWay : OnWay disk options first job) (listed : name ∈ listedNames disk job)
    (inside : child ∈ childJobs disk options job (scopesAt disk options job) name) :
    OnWay disk options first child := by
  obtain ⟨names, parents, way⟩ := onWay
  exact ⟨names ++ [name], parents ++ [job], way.down listed inside⟩

/-! ### Jobs of a scan -/

theorem OnWay.expand {seen : List Place} (onWay : OnWay disk options first job)
    (member : child ∈ (Walk.expand disk options job seen).jobs) : OnWay disk options first child := by
  obtain ⟨name, listed, found⟩ := mem_subjobs.mp (expand_jobs_subset disk options job seen member)
  exact onWay.down listed found

theorem Scans.onWay {visited seen : List Place} {opened stack : List Job}
    (scans : Scans disk options first visited opened stack seen) :
    ∀ job ∈ opened ++ stack, OnWay disk options first job := by
  induction scans with
  | start =>
    intro job member
    obtain rfl := List.mem_singleton.mp member
    exact ⟨[], [], .start⟩
  | @pop opened rest top seen _ ih =>
    intro job member
    simp only [List.mem_append, List.mem_singleton] at member
    rcases member with (before | rfl) | below | later
    · exact ih job (List.mem_append_left _ before)
    · exact ih job (by simp)
    · exact (ih top (by simp)).expand below
    · exact ih job (by simp [later])

/-! ### Jobs of a walk with threads -/

/-- All jobs of a thread are on ways from the first, and it lists a directory under the scopes for what is in it. -/
def Walker.Orderly (disk : Disk) (options : Options) (first : Job) : Walker → Prop
  | holding job => OnWay disk options first job
  | listing job scopes names jobs _ => OnWay disk options first job ∧ scopes = scopesAt disk options job ∧
      names ⊆ listedNames disk job ∧ ∀ child ∈ jobs, OnWay disk options first child
  | queueing jobs _ => ∀ child ∈ jobs, OnWay disk options first child
  | waiting | giving _ | stopping _ | breaking _ | ended | lost _ => True

structure SharedWalk.Orderly (disk : Disk) (options : Options) (first : Job) (walk : SharedWalk) : Prop where
  queued : ∀ job, some job ∈ walk.queue → OnWay disk options first job
  walkers : ∀ walker ∈ walk.walkers, walker.Orderly disk options first

section

variable {σ : Type} {receiver : Receiver σ} {walk shared next : SharedWalk} {old new : Walker} {state after : σ}
  {i threads : Nat} {logs : List Log.Record} {trace : Trace} {visited : List Place}

theorem Turn.orderly (turn : Turn disk options receiver walk state old new shared after)
    (queued : ∀ job, some job ∈ walk.queue → OnWay disk options first job)
    (orderly : old.Orderly disk options first) :
    (∀ job, some job ∈ shared.queue → OnWay disk options first job) ∧ new.Orderly disk options first := by
  cases turn with
  | goHome next =>
    refine ⟨fun job member => queued job ?_, trivial⟩
    rw [next]
    exact List.mem_cons_of_mem _ member
  | @take job rest next =>
    rw [next] at queued
    exact ⟨fun other member => queued other (List.mem_cons_of_mem _ member), queued job List.mem_cons_self⟩
  | pass | queued | give | decline | breakOff | given | tell | lose => exact ⟨queued, trivial⟩
  | openDirectory => exact ⟨queued, orderly, rfl, List.Subset.refl _, nofun⟩
  | @list job scopes name names jobs entries found adds =>
    obtain ⟨onWay, rfl, among, below⟩ := orderly
    refine ⟨queued, onWay, rfl, fun other member => among (List.mem_cons_of_mem _ member), ?_⟩
    intro child member
    rw [adds] at member
    rcases List.mem_append.mp (addChild_subset _ _ name member) with early | late
    · exact below child early
    · exact onWay.down (among List.mem_cons_self) late
  | listed => exact ⟨queued, orderly.2.2.2⟩
  | @queueJob job jobs entries =>
    refine ⟨?_, fun child member => orderly child (List.mem_cons_of_mem _ member)⟩
    intro other member
    rcases List.mem_append.mp member with before | last
    · exact queued other before
    · obtain rfl : other = job := by simpa using last
      exact orderly other List.mem_cons_self

theorem orderly_step? (orderly : walk.Orderly disk options first)
    (steps : walk.step? disk options receiver state i = some (next, after, logs)) :
    next.Orderly disk options first := by
  obtain ⟨old, new, shared, held, turn, rfl⟩ := turn_of_step? steps
  obtain ⟨queued, fresh⟩ := turn.orderly orderly.queued (orderly.walkers old (List.mem_of_getElem? held))
  refine ⟨queued, ?_⟩
  simpa [SharedWalk.setWalker, turn.walkers] using forall_mem_set orderly.walkers fresh

theorem Course.orderly (course : Course disk options (.begin threads first visited) trace walk) :
    walk.Orderly disk options first := by
  induction course with
  | refl =>
    refine ⟨fun job member => ?_, fun walker member => ?_⟩
    · obtain rfl : job = first := by simpa [SharedWalk.begin] using member
      exact ⟨[], [], .start⟩
    · rw [List.eq_of_mem_replicate member]
      trivial
  | step _ steps ih => exact orderly_step? ih steps
  | close _ closes ih =>
    rcases close?_cases closes with ⟨-, rfl⟩ | ⟨left, -, rfl⟩
    · exact ⟨ih.queued, ih.walkers⟩
    · refine ⟨fun job member => ih.queued job ?_, ih.walkers⟩
      simpa [SharedWalk.put] using member

end

/-! ### The layers above the root -/

/-- The checkout of a place begins so many names down: at the nearest top, or at the place itself if there is none. -/
structure TopAt (disk : Disk) (place : Place) (depth : Nat) : Prop where
  inside : depth ≤ place.length
  reached : isTop disk ⟨1, place.take depth⟩ = .ok true ∨
    depth = place.length ∧ ∀ upper, upper <+: place → isTop disk ⟨1, upper⟩ = .ok false
  nearest : ∀ further, depth < further → further ≤ place.length → isTop disk ⟨1, place.take further⟩ = .ok false

theorem TopAt.self (top : isTop disk ⟨1, place⟩ = .ok true) : TopAt disk place place.length where
  inside := le_rfl
  reached := .inl (by rwa [List.take_length])
  nearest _ beyond most := absurd most (not_le.mpr beyond)

/-- A place that is no top itself has the top of the directory above it. -/
theorem TopAt.concat {depth : Nat} {name : String} (topAt : TopAt disk place depth)
    (top : isTop disk ⟨1, place.take depth⟩ = .ok true) (below : isTop disk ⟨1, place ++ [name]⟩ = .ok false) :
    TopAt disk (place ++ [name]) depth where
  inside := by
    rw [List.length_append]
    exact le_trans topAt.inside (Nat.le_add_right _ _)
  reached := .inl (by rwa [List.take_append_of_le_length topAt.inside])
  nearest := by
    intro further beyond most
    rw [List.length_append, List.length_singleton] at most
    rcases Nat.lt_or_ge place.length further with last | before
    · rwa [List.take_of_length_le (by simp; omega)]
    · rw [List.take_append_of_le_length before]
      exact topAt.nearest further beyond before

theorem map_take_concat {depth : Nat} (inside : depth ≤ place.length) (name : String) :
    (List.range' depth ((place ++ [name]).length + 1 - depth)).map (fun k => (⟨1, (place ++ [name]).take k⟩ : Path)) =
      (List.range' depth (place.length + 1 - depth)).map (fun k => ⟨1, place.take k⟩) ++ [⟨1, place ++ [name]⟩] := by
  have upTo : (List.range' depth (place.length + 1 - depth)).map
      (fun k => (⟨1, (place ++ [name]).take k⟩ : Path)) =
      (List.range' depth (place.length + 1 - depth)).map fun k => ⟨1, place.take k⟩ := by
    refine List.map_congr_left fun k member => ?_
    have between := List.mem_range'_1.mp member
    rw [List.take_append_of_le_length (by omega)]
  have longer : (place ++ [name]).length + 1 - depth = (place.length + 1 - depth) + 1 := by simp; omega
  have last : (place ++ [name]).take (depth + (place.length + 1 - depth)) = place ++ [name] :=
    List.take_of_length_le (by simp; omega)
  rw [longer, List.range'_1_concat, List.map_append, upTo, List.map_singleton, last]

/-- What a search from a place upwards finds. -/
theorem upToTop_place {found : List Path}
    (searched : upToTop disk (⟨1, place⟩ :: Path.ancestors ⟨1, place⟩) = .ok found) :
    found = [] ∧ (∀ upper, upper <+: place → isTop disk ⟨1, upper⟩ = .ok false) ∨
      ∃ depth, TopAt disk place depth ∧ isTop disk ⟨1, place.take depth⟩ = .ok true ∧
        found.reverse = (List.range' depth (place.length + 1 - depth)).map fun k => ⟨1, place.take k⟩ := by
  induction place using List.reverseRecOn generalizing found with
  | nil =>
    rcases upToTop_cases searched with ⟨none, rfl⟩ | ⟨nearer, top, rest, whole, -, isTop, rfl⟩
    · refine .inl ⟨rfl, fun upper inside => ?_⟩
      rw [List.prefix_nil.mp inside]
      exact none _ List.mem_cons_self
    · obtain ⟨rfl, rfl, -⟩ : nearer = [] ∧ top = ⟨1, []⟩ ∧ rest = [] := by
        have short := congrArg List.length whole
        cases nearer with
        | nil =>
          cases whole
          exact ⟨rfl, rfl, rfl⟩
        | cons => simp [Path.ancestors, Path.ancestorsOf] at short
      exact .inr ⟨_, .self isTop, isTop, rfl⟩
  | append_singleton place name ih =>
    have ancestors : Path.ancestors ⟨1, place ++ [name]⟩ = ⟨1, place⟩ :: Path.ancestors ⟨1, place⟩ := by
      simp [Path.ancestors, ancestorsOf_append_singleton]
    rw [ancestors, upToTop] at searched
    cases asked : isTop disk ⟨1, place ++ [name]⟩ with
    | error => simp [asked, Except.bind] at searched
    | ok top =>
      cases top with
      | true =>
        rw [asked] at searched
        cases searched
        exact .inr ⟨_, .self asked, by rwa [List.take_length], by simp⟩
      | false =>
        cases upwards : upToTop disk (⟨1, place⟩ :: Path.ancestors ⟨1, place⟩) with
        | error => simp [asked, upwards, Except.bind, Except.map] at searched
        | ok others =>
          rw [asked, upwards] at searched
          simp only [Except.bind, Except.map, Bool.false_eq_true, if_false, Except.ok.injEq] at searched
          rcases ih upwards with ⟨rfl, none⟩ | ⟨depth, topAt, isTop, same⟩
          · refine .inl ⟨by simpa using searched.symm, fun upper inside => ?_⟩
            rcases List.prefix_concat_iff.mp inside with rfl | higher
            · exact asked
            · exact none upper higher
          · -- the top stays the same, one name further up
            have short := topAt.inside
            have some : others ≠ [] := by
              rintro rfl
              have length := congrArg List.length same
              simp at length
              omega
            refine .inr ⟨depth, topAt.concat isTop asked, by rwa [List.take_append_of_le_length short], ?_⟩
            rw [← searched, if_neg (by simpa using some), List.reverse_cons, same, map_take_concat short]

/-- The directories of a checkout above a place are all those from its top down to the place. -/
theorem exists_topAt (searched : checkoutAbove disk ⟨1, place⟩ = .ok above) : ∃ depth, TopAt disk place depth ∧
    above = (List.range' depth (place.length - depth)).map fun k => ⟨1, place.take k⟩ := by
  have whole : upToTop disk (⟨1, place⟩ :: Path.ancestors ⟨1, place⟩) =
      .ok (if isTop disk ⟨1, place⟩ = .ok true ∨ above ≠ [] then ⟨1, place⟩ :: above.reverse else []) := by
    rw [upToTop]
    rcases checkoutAbove_cases searched with ⟨top, rfl⟩ | ⟨notTop, found, upwards, rfl⟩
    · simp [top, Except.bind]
    · rw [notTop, upwards]
      cases found <;> simp [Except.bind, Except.map]
  rcases upToTop_place whole with ⟨nothing, none⟩ | ⟨depth, topAt, top, same⟩
  · have notTop : ¬ (isTop disk ⟨1, place⟩ = .ok true ∨ above ≠ []) := by
      intro found
      simp [if_pos found] at nothing
    rw [not_or, not_not] at notTop
    refine ⟨place.length, ⟨le_rfl, .inr ⟨rfl, none⟩, fun further beyond most => absurd most (not_le.mpr beyond)⟩, ?_⟩
    simp [notTop.2]
  · have found : isTop disk ⟨1, place⟩ = .ok true ∨ above ≠ [] := by
      by_contra none
      rw [if_neg none] at same
      have short := topAt.inside
      have length := congrArg List.length same
      simp at length
      omega
    have longer : place.length + 1 - depth = (place.length - depth) + 1 := by
      have short := topAt.inside
      omega
    rw [if_pos found, List.reverse_cons, List.reverse_reverse, longer, List.range'_1_concat, List.map_append] at same
    exact ⟨depth, topAt, (List.append_inj' same rfl).1⟩

theorem layersAbove_eq (searched : checkoutAbove disk ⟨1, place⟩ = .ok above) : ∃ depth, TopAt disk place depth ∧
    layersAbove disk above place = (List.range' depth (place.length - depth)).map fun k =>
      (place.drop k, (readRules disk ⟨1, place.take k⟩).1) := by
  obtain ⟨depth, topAt, rfl⟩ := exists_topAt searched
  refine ⟨depth, topAt, ?_⟩
  rw [layersAbove, List.map_map]
  refine List.map_congr_left fun k member => ?_
  have between := List.mem_range'_1.mp member
  have short : k ≤ place.length := by omega
  rw [Function.comp_apply, List.length_take_of_le short]

/-! ### What the layers see -/

variable {scope : Scope}

theorem eq_of_mem_scopeOf {base lead : List String} {rules : List Rule} (listed : scope ∈ scopeOf base lead rules) :
    scope = { base := spelled base, rules, lead := spelled lead } := by
  unfold scopeOf at listed
  split at listed
  · cases listed
  · exact List.mem_singleton.mp listed

theorem mem_scopesUp (searched : checkoutAbove disk ⟨1, place⟩ = .ok above)
    (listed : scope ∈ scopesUp (layersAbove disk above place)) : ∃ directory ∈ above, ∃ lead, lead ≠ [] ∧
    place = directory.parts ++ lead ∧
      scope = { base := [], rules := (readRules disk directory).1, lead := spelled lead } := by
  obtain ⟨layer, member, listed⟩ := List.mem_flatMap.mp listed
  obtain ⟨directory, listedAbove, rfl⟩ := List.mem_map.mp member
  obtain ⟨lead, some, whole⟩ := exists_lead searched listedAbove
  refine ⟨directory, listedAbove, lead, some, whole, ?_⟩
  have between : place.drop directory.parts.length = lead := by rw [whole, List.drop_left]
  rw [eq_of_mem_scopeOf listed, between]
  rfl

theorem mem_scopesDown {excluded : List Rule} {rules : List (List Rule)}
    (listed : scope ∈ scopesDown excluded names rules) :
    ∃ depth own, depth < rules.length ∧ scope = { base := spelled (names.take depth), rules := own } := by
  obtain ⟨directory, member, listed⟩ := List.mem_flatMap.mp listed
  have inside : directory.2 < rules.length := List.snd_lt_of_mem_zipIdx member
  refine ⟨directory.2, ?_⟩
  rcases List.mem_append.mp listed with own | excludes
  · exact ⟨directory.1, inside, eq_of_mem_scopeOf own⟩
  · split at excludes
    · rename_i top
      refine ⟨excluded, inside, ?_⟩
      rw [eq_of_mem_scopeOf excludes, top]
      rfl
    · cases excludes

theorem relative_of_mem_scopesUp (searched : checkoutAbove disk ⟨1, place⟩ = .ok above)
    (properPlace : ∀ name ∈ place, name ≠ "") (more : names ≠ [])
    (listed : scope ∈ scopesUp (layersAbove disk above place)) : scope.relative (spelled names) ≠ none := by
  obtain ⟨directory, -, lead, some, rfl, rfl⟩ := mem_scopesUp searched listed
  rw [relative_lead some (fun name member => properPlace name (List.mem_append_right _ member)) more]
  exact Option.some_ne_none _

theorem relative_of_mem_scopesDown {excluded : List Rule} {rules : List (List Rule)}
    (proper : ∀ name ∈ names, name ≠ "") (listed : scope ∈ scopesDown excluded names rules) (name : String) :
    scope.relative (spelled (names ++ [name])) ≠ none := by
  obtain ⟨depth, own, -, rfl⟩ := mem_scopesDown listed
  have whole : names ++ [name] = names.take depth ++ (names.drop depth ++ [name]) := by
    rw [← List.append_assoc, List.take_append_drop]
  have properAbove : ∀ name ∈ names.take depth, name ≠ "" := fun name member =>
    proper name (List.mem_of_mem_take member)
  rw [whole, relative_base properAbove (by simp)]
  exact Option.some_ne_none _

theorem Layered.relative_ne_none (layered : Layered disk options above place names parents job)
    (searched : checkoutAbove disk ⟨1, place⟩ = .ok above) (properPlace : ∀ name ∈ place, name ≠ "")
    (listed : scope ∈ scopesAt disk options job) (name : String) :
    scope.relative (belowOf job name) ≠ none := by
  rw [layered.scopesAt_eq] at listed
  rw [layered.belowOf_eq]
  rcases List.mem_append.mp listed with up | down
  · exact relative_of_mem_scopesUp searched properPlace (by simp) up
  · exact relative_of_mem_scopesDown (fun name member => (layered.proper name member).1) down name

theorem Layered.ignored_congr {disk' : Disk} {options' : Options} {above' : List Path} {place' : Place}
    {parents' : List Job} {job' : Job} (layered : Layered disk options above place names parents job)
    (layered' : Layered disk' options' above' place' names parents' job')
    (up : layersAbove disk' above' place' = layersAbove disk above place)
    (excluded : options'.excluded = options.excluded)
    (down : (parents' ++ [job']).map (rulesFor disk') = (parents ++ [job]).map (rulesFor disk))
    (name : String) (isDir : Bool) :
    ignored (belowOf job' name) isDir (scopesAt disk' options' job') =
      ignored (belowOf job name) isDir (scopesAt disk options job) := by
  have sameRules : excludedRules options' = excludedRules options := by rw [excludedRules, excludedRules, excluded]
  rw [layered.scopesAt_eq, layered'.scopesAt_eq, layered.belowOf_eq, layered'.belowOf_eq, up, down, sameRules]

/-- In every state of a scan and of a walk with threads, the scopes of each job lie in layers: those of the checkout
above the root, from its top down, and those of the directories on the way to the job, with what is excluded directly
behind the root's. All of them reach what is in the directory of the job, nothing else has a say in it, and the last
rule that names it decides. -/
theorem scopes_in_layers {visited : List Place} {logs : List Log.Record}
    (begins : start disk options root = .ok (.tree first visited logs)) :
    ∃ above, checkoutAbove disk ⟨1, first.place⟩ = .ok above ∧
    (∀ opened stack seen, Scans disk options first visited opened stack seen →
      ∀ job ∈ opened ++ stack, ∃ names parents, Way disk options first names parents job) ∧
    (∀ threads trace walk, Course disk options (.begin threads first visited) trace walk →
      walk.Orderly disk options first) ∧
    (∃ depth, TopAt disk first.place depth ∧ layersAbove disk above first.place =
      (List.range' depth (first.place.length - depth)).map fun k =>
        (first.place.drop k, (readRules disk ⟨1, first.place.take k⟩).1)) ∧
    (∀ scope ∈ scopesUp (layersAbove disk above first.place), scope.lead ≠ []) ∧
    ∀ names parents job, Way disk options first names parents job →
      Layered disk options above first.place names parents job ∧
      (∀ scope ∈ scopesDown (excludedRules options) names (parents.map (rulesFor disk)),
        scope.lead = [] ∧ ∃ upper rest, names = upper ++ rest ∧ rest ≠ [] ∧ scope.base = spelled upper) ∧
      ∀ name isDir,
        (∀ scope ∈ scopesAt disk options job, scope.relative (belowOf job name) ≠ none) ∧
        ((∀ entry ∈ rulesIn (scopesAt disk options job), namedBy (belowOf job name) isDir entry = false) ∧
            ignored (belowOf job name) isDir (scopesAt disk options job) = false ∨
          ∃ before scope rule after, rulesIn (scopesAt disk options job) = before ++ (scope, rule) :: after ∧
            namedBy (belowOf job name) isDir (scope, rule) = true ∧
            (∀ later ∈ after, namedBy (belowOf job name) isDir later = false) ∧
            ignored (belowOf job name) isDir (scopesAt disk options job) = !rule.negate) ∧
        (∀ shallow deeper entry, scopesAt disk options job = shallow ++ deeper → entry ∈ rulesIn deeper →
          namedBy (belowOf job name) isDir entry = true → ∀ others,
            ignored (belowOf job name) isDir (others ++ deeper) =
              ignored (belowOf job name) isDir (scopesAt disk options job)) ∧
        ∀ disk' options' root' first' visited' logs' above' parents' job',
          start disk' options' root' = .ok (.tree first' visited' logs') →
          checkoutAbove disk' ⟨1, first'.place⟩ = .ok above' →
          Way disk' options' first' names parents' job' →
          layersAbove disk' above' first'.place = layersAbove disk above first.place →
          options'.excluded = options.excluded →
          (parents' ++ [job']).map (rulesFor disk') = (parents ++ [job]).map (rulesFor disk) →
            ignored (belowOf job' name) isDir (scopesAt disk' options' job') =
              ignored (belowOf job name) isDir (scopesAt disk options job) := by
  obtain ⟨found, made, -⟩ := start_tree begins
  obtain ⟨-, -, above, opens⟩ := opens_of_rootJob made
  have properPlace : ∀ name ∈ first.place, name ≠ "" := fun name member =>
    (Disk.named_of_item? (Disk.lookup_eq_ok found).2 name member).1
  refine ⟨above, opens.searched, fun _ _ _ scans => scans.onWay, fun _ _ _ course => course.orderly,
    layersAbove_eq opens.searched, ?_, ?_⟩
  · intro scope listed
    obtain ⟨directory, -, lead, some, whole, rfl⟩ := mem_scopesUp opens.searched listed
    rw [whole] at properPlace
    intro none
    exact some ((spelled_eq_nil_iff fun name member => properPlace name (List.mem_append_right _ member)).mp none)
  · intro names parents job way
    have layered := way.layered (layered_root opens)
    refine ⟨layered, ?_, ?_⟩
    · intro scope listed
      obtain ⟨depth, own, inside, rfl⟩ := mem_scopesDown listed
      rw [List.length_map, layered.even] at inside
      refine ⟨rfl, names.take depth, names.drop depth, (List.take_append_drop _ _).symm, ?_, rfl⟩
      exact fun none => absurd (List.drop_eq_nil_iff.mp none) (not_le.mpr inside)
    · intro name isDir
      refine ⟨fun scope listed => layered.relative_ne_none opens.searched properPlace listed name,
        ignored_cases _ _ _, ?_, ?_⟩
      · intro shallow deeper entry split listed names others
        rw [split, ignored_of_deeper listed names, ignored_of_deeper listed names]
      · intro disk' options' root' first' visited' logs' above' parents' job' begins' searched' way' up excluded down
        obtain ⟨-, made', -⟩ := start_tree begins'
        obtain ⟨-, -, found', opens'⟩ := opens_of_rootJob made'
        obtain rfl : found' = above' := by
          have again := opens'.searched
          rw [searched'] at again
          cases again
          rfl
        exact layered.ignored_congr (way'.layered (layered_root opens')) up excluded down name isDir

/-- A checkout with ignore files at its top and in a directory below. -/
def layeredDisk : Disk where
  items := [(["r"], .directory), (["r", ".git"], .directory), (["r", ".gitignore"], .file (Text.encodeUtf8 ['*'])),
    (["r", "s"], .directory), (["r", "s", ".ignore"], .file (Text.encodeUtf8 ['!', 't'])),
    (["r", "s", "t"], .directory)]
  here := []
  home := "/"
  locked := []
  sealed := []
  tree := by decide

/-- The walk of the directory below, which excludes something, too. -/
def excluding : Options := { excluded := ["x"] }

def layeredRoot : Job where
  path := ⟨1, ["r", "s"]⟩
  place := ["r", "s"]
  below := []
  scopes := scopesUp (layersAbove layeredDisk [⟨1, ["r"]⟩] ["r", "s"])

def layeredJob : Job where
  path := ⟨1, ["r", "s", "t"]⟩
  place := ["r", "s", "t"]
  below := ['t']
  scopes := scopesAt layeredDisk excluding layeredRoot

theorem scopes_in_layers_checkout :
    start layeredDisk excluding ⟨1, ["r", "s"]⟩ = .ok (.tree layeredRoot [] []) ∧
    Way layeredDisk excluding layeredRoot ["t"] [layeredRoot] layeredJob ∧
    layeredJob.scopes.map (fun scope => (scope.lead, scope.base)) = [(['s'], []), ([], []), ([], [])] ∧
    ∃ above, checkoutAbove layeredDisk ⟨1, ["r", "s"]⟩ = .ok above ∧
      Layered layeredDisk excluding above ["r", "s"] ["t"] [layeredRoot] layeredJob := by
  have begins : start layeredDisk excluding ⟨1, ["r", "s"]⟩ = .ok (.tree layeredRoot [] []) := by decide +kernel
  have inside : layeredJob ∈
      childJobs layeredDisk excluding layeredRoot (scopesAt layeredDisk excluding layeredRoot) "t" := by
    decide +kernel
  have listed : listedNames layeredDisk layeredRoot = [".ignore", "t"] := by decide +kernel
  have way : Way layeredDisk excluding layeredRoot ["t"] [layeredRoot] layeredJob :=
    .down .start (by simp [listed]) inside
  obtain ⟨above, searched, -, -, -, -, ways⟩ := scopes_in_layers begins
  exact ⟨begins, way, by decide +kernel, above, searched, (ways _ _ _ way).1⟩

end Walk

end SyntaxTally
