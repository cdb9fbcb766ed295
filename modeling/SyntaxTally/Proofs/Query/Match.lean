import SyntaxTally.Proofs.Query.Ways

/-!
# What threads bring through a row

A thread that looks for one node among siblings meets each of them. The ways it finds differ in what they captured, so
none outdoes another and none is dropped: the ways through the row are those at each sibling that fits, in their order
(`matchRow_single`). From that the search for patterns of one node, with one node below another, finds all ways in
which they fit (`finds_matchesIn`).
-/
namespace SyntaxTally.Query

open SyntaxTally.Syntax

/-! ### Threads that are kept -/

namespace Thread

variable {threads : List Thread}

/-- What neither thread captured is all captured by the other. -/
def Apart (a b : Thread) : Prop :=
  Capture.within a.captures b.captures = false ∧ Capture.within b.captures a.captures = false

/-- At different steps, or apart. -/
def Abreast (a b : Thread) : Prop := a.step = b.step → Apart a b

theorem prune_of_abreast (abreast : threads.Pairwise Abreast) : prune threads = threads := by
  have folded : ∀ rest kept : List Thread, (kept ++ rest).Pairwise Abreast →
      rest.foldl (fun kept t =>
        if kept.any (fun k => k.step = t.step && Capture.within t.captures k.captures) then kept
        else kept.filter (fun k => !(k.step = t.step && Capture.within k.captures t.captures)) ++ [t]) kept =
      kept ++ rest := by
    intro rest
    induction rest with
    | nil => intro kept _; simp
    | cons t rest ih =>
      intro kept abreast
      have with_t : ∀ k ∈ kept, Abreast k t := fun k among =>
        (List.pairwise_append.mp abreast).2.2 k among t List.mem_cons_self
      have none : kept.any (fun k => k.step = t.step && Capture.within t.captures k.captures) = false := by
        rw [List.any_eq_false]
        intro k among both
        obtain ⟨same, inside⟩ := Bool.and_eq_true_iff.mp both
        rw [(with_t k among (of_decide_eq_true same)).2] at inside
        cases inside
      have all : kept.filter (fun k => !(k.step = t.step && Capture.within k.captures t.captures)) = kept := by
        rw [List.filter_eq_self]
        intro k among
        rw [Bool.not_eq_true', Bool.and_eq_false_iff, or_iff_not_imp_left]
        intro same
        exact (with_t k among (by simpa using same)).1
      rw [List.foldl_cons, none, if_neg Bool.false_ne_true, all, ih _ (by simpa using abreast), List.append_assoc]
      rfl
  exact folded threads [] abreast

theorem map_filter_zipIdx (keeps : Thread → Bool) :
    (threads.zipIdx.filter fun x => keeps x.1).map (·.1) = threads.filter keeps := by
  conv => rhs; rw [← List.zipIdx_map_fst 0 threads, List.filter_map]
  rfl

/-- Threads at the end of the row are through, if no thread captured all that one of them did. -/
theorem settle_of_apart {length : Nat}
    (apart : threads.Pairwise fun a b =>
      (a.step = length → Capture.within a.captures b.captures = false) ∧
      (b.step = length → Capture.within b.captures a.captures = false)) :
    settle length threads =
      ((threads.filter (·.step = length)).map (·.captures), threads.filter (·.step ≠ length)) := by
  have alone : ∀ x ∈ threads.zipIdx, ∀ y ∈ threads.zipIdx, x.1.step = length → x.2 ≠ y.2 →
      Capture.within x.1.captures y.1.captures = false := by
    rintro ⟨a, i⟩ first ⟨b, j⟩ second ended different
    obtain ⟨hi, here⟩ := List.getElem?_eq_some_iff.mp (List.mem_zipIdx_iff_getElem?.mp first)
    obtain ⟨hj, there⟩ := List.getElem?_eq_some_iff.mp (List.mem_zipIdx_iff_getElem?.mp second)
    rw [List.pairwise_iff_getElem] at apart
    rcases Nat.lt_or_gt_of_ne different with before | behind
    · have both := apart i j hi hj before
      rw [here, there] at both
      exact both.1 ended
    · have both := apart j i hj hi behind
      rw [here, there] at both
      exact both.2 ended
  have done : (threads.zipIdx.filter fun x => x.1.step = length &&
      !threads.zipIdx.any fun y => x.2 ≠ y.2 && Capture.within x.1.captures y.1.captures) =
      threads.zipIdx.filter fun x => x.1.step = length := by
    apply List.filter_congr
    intro x among
    by_cases ended : x.1.step = length
    · have none : (threads.zipIdx.any fun y => x.2 ≠ y.2 && Capture.within x.1.captures y.1.captures) = false := by
        rw [List.any_eq_false]
        intro y other both
        obtain ⟨different, inside⟩ := Bool.and_eq_true_iff.mp both
        rw [alone x among y other ended (of_decide_eq_true different)] at inside
        cases inside
      rw [none, Bool.not_false, Bool.and_true]
    · simp [ended]
  have going : (threads.zipIdx.filter fun x =>
      !(threads.zipIdx.filter fun x => x.1.step = length).any fun y => y.2 = x.2) =
      threads.zipIdx.filter fun x => x.1.step ≠ length := by
    apply List.filter_congr
    rintro ⟨a, i⟩ among
    rw [Bool.eq_iff_iff, Bool.not_eq_true', List.any_eq_false, decide_eq_true_eq]
    constructor
    · intro absent ended
      exact absent (a, i) (List.mem_filter.mpr ⟨among, decide_eq_true ended⟩) (decide_eq_true rfl)
    · rintro going ⟨b, j⟩ kept same
      obtain ⟨other, ended⟩ := List.mem_filter.mp kept
      obtain rfl : j = i := by simpa using same
      have here := List.mem_zipIdx_iff_getElem?.mp among
      have there := List.mem_zipIdx_iff_getElem?.mp other
      obtain rfl : a = b := Option.some.inj (here.symm.trans there)
      exact going (of_decide_eq_true ended)
  unfold settle
  dsimp only
  rw [done, going, map_filter_zipIdx (fun t => decide (t.step ≠ length)),
    ← map_filter_zipIdx (fun t => decide (t.step = length)), List.map_map]
  rfl

end Thread

/-! ### One step in a row -/

variable {s : Step} {place : List Nat}

/-- What the step itself captures. -/
def Step.own (s : Step) (place : List Nat) (t : Tree) : List Capture :=
  s.demand.captures.map fun name => ⟨name, place, t⟩

theorem matchNode_of_leaf (leaf : s.children = []) (t : Tree) : matchNode s place t = [s.own place t] := by
  obtain ⟨label, children⟩ := t
  rw [matchNode, leaf]
  rfl

theorem matchNode_of_single {below : Step} (single : s.children = [below]) (t : Tree) :
    matchNode s place t =
      (matchRow [below] place 0 (Thread.start [below]) t.children).map (s.own place t ++ ·) := by
  obtain ⟨label, children⟩ := t
  rw [matchNode, single]
  rfl

/-- The step stands for one node, and asks for no place among the siblings. -/
def Demand.Free (d : Demand) : Prop := d.other = none ∧ d.immediate = false ∧ d.last = false

instance (d : Demand) : Decidable d.Free := inferInstanceAs (Decidable (_ ∧ _))

theorem start_single (free : s.demand.Free) : Thread.start [s] = [⟨0, false, []⟩] := by
  simp [Thread.start, Thread.arrive, free.1]

/-- A later sibling may fit: there is one, and the field of the step does not end here. -/
def mayFollow (s : Step) (t : Tree) (later : List Tree) : Bool :=
  !later.isEmpty && s.demand.field.all fun name => t.field ≠ some name || later.any (·.field = some name)

theorem not_fits_of_not_mayFollow {t : Tree} {later : List Tree} (ends : mayFollow s t later = false) :
    ∀ other ∈ later, s.fits other = false := by
  intro other listed
  have occupied : later.isEmpty = false := by
    cases later with
    | nil => cases listed
    | cons => rfl
  rw [mayFollow, occupied, Bool.not_false, Bool.true_and] at ends
  cases field : s.demand.field with
  | none =>
    rw [field] at ends
    cases ends
  | some name =>
    rw [field, Option.all_some, Bool.or_eq_false_iff, List.any_eq_false] at ends
    have outside : other.field ≠ some name := by simpa using ends.2 other listed
    simp [Step.fits, field, outside]

/-- The ways in which the step fits a sibling. -/
def foundAt (s : Step) (place : List Nat) (i : Nat) (t : Tree) : List (List Capture) :=
  if s.fits t then matchNode s (i :: place) t else []

theorem meet_single (free : s.demand.Free) (capturing : s.capturing = true) (i : Nat) (t : Tree) (later : List Tree) :
    Thread.meet [s] (fun s => matchNode s (i :: place) t) t later ⟨0, false, []⟩ =
      (foundAt s place i t).map (⟨1, false, ·⟩) ++ if mayFollow s t later then [⟨0, false, []⟩] else [] := by
  obtain ⟨other, immediate, last⟩ := free
  unfold Thread.meet foundAt mayFollow
  cases fits : s.fits t with
  | false => simp [fits, immediate]
  | true =>
    simp only [List.map_eq_flatMap]
    simp [fits, Thread.arrive, immediate, last, capturing]

/-- The ways differ from each other in what they captured, and each captured something. -/
structure Distinct (ways : List (List Capture)) : Prop where
  apart : ways.Pairwise fun a b => Capture.within a b = false ∧ Capture.within b a = false
  some : ∀ way ∈ ways, way ≠ []

theorem within_nil {way : List Capture} (some : way ≠ []) : Capture.within way [] = false := by
  cases way with
  | nil => exact absurd rfl some
  | cons => rfl

/-- The ways at a sibling are through, and the thread goes on if another sibling may fit. -/
theorem settled_single {ways : List (List Capture)} (distinct : Distinct ways) (goesOn : Bool) :
    Thread.settle 1 (Thread.prune (ways.map (⟨1, false, ·⟩) ++ if goesOn then [⟨0, false, []⟩] else [])) =
      (ways, if goesOn then [⟨0, false, []⟩] else []) := by
  have waiting : ∀ thread ∈ (if goesOn then [⟨0, false, []⟩] else [] : List Thread), thread = ⟨0, false, []⟩ := by
    cases goesOn <;> simp
  have lone : (if goesOn then [⟨0, false, []⟩] else [] : List Thread).Pairwise fun _ _ => False := by
    cases goesOn <;> simp
  rw [Thread.prune_of_abreast, Thread.settle_of_apart]
  · have kept : (if goesOn then [⟨0, false, []⟩] else [] : List Thread).filter (·.step = 1) = [] := by
      cases goesOn <;> rfl
    have going : (if goesOn then [⟨0, false, []⟩] else [] : List Thread).filter (·.step ≠ 1) =
        if goesOn then [⟨0, false, []⟩] else [] := by
      cases goesOn <;> rfl
    rw [List.filter_append, List.filter_append, kept, going]
    simp [List.filter_map, Function.comp_def]
  · rw [List.pairwise_append, List.pairwise_map]
    refine ⟨distinct.apart.imp fun both => ⟨fun _ => both.1, fun _ => both.2⟩, lone.imp False.elim, ?_⟩
    intro a through b waits
    obtain ⟨way, listed, rfl⟩ := List.mem_map.mp through
    rw [waiting b waits]
    exact ⟨fun _ => within_nil (distinct.some way listed), fun ended => absurd ended (by decide)⟩
  · rw [List.pairwise_append, List.pairwise_map]
    refine ⟨?_, lone.imp False.elim, ?_⟩
    · apply List.Pairwise.imp _ distinct.apart
      intro a b both same
      exact both
    · intro a through b waits same
      obtain ⟨way, listed, rfl⟩ := List.mem_map.mp through
      rw [waiting b waits] at same
      exact absurd same Nat.one_ne_zero

/-- The ways at each sibling that fits, the first of which is number `i`. -/
def foundFrom (s : Step) (place : List Nat) : Nat → List Tree → List (List Capture)
  | _, [] => []
  | i, t :: later => foundAt s place i t ++ foundFrom s place (i + 1) later

theorem foundFrom_eq_nil {children : List Tree} (none : ∀ t ∈ children, s.fits t = false) (i : Nat) :
    foundFrom s place i children = [] := by
  induction children generalizing i with
  | nil => rfl
  | cons t later ih =>
    obtain ⟨here, there⟩ := List.forall_mem_cons.mp none
    simp [foundFrom, foundAt, here, ih there]

theorem matchRow_single (free : s.demand.Free) (capturing : s.capturing = true)
    (distinct : ∀ place t, Distinct (matchNode s place t)) (i : Nat) (children : List Tree) :
    matchRow [s] place i [⟨0, false, []⟩] children = foundFrom s place i children := by
  induction children generalizing i with
  | nil => rw [matchRow]; rfl
  | cons t later ih =>
    have differ : Distinct (foundAt s place i t) := by
      unfold foundAt
      split
      · exact distinct (i :: place) t
      · exact ⟨.nil, fun way listed => absurd listed List.not_mem_nil⟩
    rw [matchRow, foundFrom]
    dsimp only
    rw [List.flatMap_singleton, meet_single free capturing, List.length_singleton, settled_single differ]
    cases follows : mayFollow s t later with
    | true =>
      rw [if_pos rfl]
      exact congrArg _ (ih (i + 1))
    | false =>
      rw [if_neg Bool.false_ne_true, foundFrom_eq_nil (not_fits_of_not_mayFollow follows), List.append_nil]

/-! ### Steps below each other -/

/-- One step below the other, each free, and the last one captures its node. -/
def Step.plain : Step → Bool
  | step demand [] => decide demand.Free && !demand.captures.isEmpty
  | step demand [below] => decide demand.Free && below.plain
  | step _ (_ :: _ :: _) => false

theorem capturing_of_plain (plain : s.plain = true) : s.capturing = true := by
  fun_induction Step.plain s with
  | case1 demand =>
    rw [Step.capturing, (Bool.and_eq_true_iff.mp plain).2]
    rfl
  | case2 demand below ih =>
    rw [Step.capturing, Step.anyCapturing, ih (Bool.and_eq_true_iff.mp plain).2, Bool.true_or, Bool.or_true]
  | case3 => cases plain

theorem free_of_plain (plain : s.plain = true) : s.demand.Free := by
  fun_cases Step.plain s with
  | case1 demand => exact of_decide_eq_true (Bool.and_eq_true_iff.mp plain).1
  | case2 demand below => exact of_decide_eq_true (Bool.and_eq_true_iff.mp plain).1
  | case3 => cases plain

theorem exists_of_mem_foundFrom {children : List Tree} {i : Nat} {way : List Capture}
    (found : way ∈ foundFrom s place i children) : ∃ j ≥ i, ∃ child, way ∈ matchNode s (j :: place) child := by
  induction children generalizing i with
  | nil => cases found
  | cons t later ih =>
    rcases List.mem_append.mp found with here | further
    · unfold foundAt at here
      split at here
      · exact ⟨i, Nat.le_refl i, t, here⟩
      · cases here
    · obtain ⟨j, behind, child, way⟩ := ih further
      exact ⟨j, Nat.le_of_succ_le behind, child, way⟩

/-- What a step captures, and steps below it, lies at or below the place of its node. -/
def Below (s : Step) : Prop :=
  ∀ place t, ∀ way ∈ matchNode s place t, ∀ capture ∈ way, place <:+ capture.place

theorem eq_of_suffixes {i j : Nat} {long : List Nat} (first : (i :: place) <:+ long) (second : (j :: place) <:+ long) :
    i = j := by
  have same := (List.suffix_of_suffix_length_le first second (Nat.le_refl _)).eq_of_length rfl
  exact (List.cons.inj same).1

theorem within_eq_false {a b : List Capture} (some : a ≠ [])
    (different : ∀ c ∈ a, ∀ d ∈ b, c.place ≠ d.place) : Capture.within a b = false := by
  obtain ⟨c, listed⟩ := List.exists_mem_of_ne_nil a some
  rw [Capture.within, List.all_eq_false]
  refine ⟨c, listed, fun within => ?_⟩
  obtain ⟨d, other, same⟩ := List.any_eq_true.mp within
  exact different c listed d other (of_decide_eq_true (Bool.and_eq_true_iff.mp same).2)

theorem distinct_foundFrom (below : Below s) (distinct : ∀ place t, Distinct (matchNode s place t)) (i : Nat)
    (children : List Tree) : Distinct (foundFrom s place i children) := by
  induction children generalizing i with
  | nil => exact ⟨.nil, fun way listed => absurd listed List.not_mem_nil⟩
  | cons t later ih =>
    have rest := ih (i + 1)
    rw [foundFrom, foundAt]
    split
    · have here := distinct (i :: place) t
      refine ⟨List.pairwise_append.mpr ⟨here.apart, rest.apart, ?_⟩, ?_⟩
      · intro a first b second
        obtain ⟨j, behind, child, found⟩ := exists_of_mem_foundFrom second
        -- What is captured at one sibling does not lie below another.
        have apart : ∀ c ∈ a, ∀ d ∈ b, c.place ≠ d.place := by
          intro c left d right same
          have one := below _ _ a first c left
          rw [same] at one
          exact absurd (eq_of_suffixes one (below _ _ b found d right)) (by omega)
        exact ⟨within_eq_false (here.some a first) apart,
          within_eq_false (rest.some b second) fun d right c left same => apart c left d right same.symm⟩
      · intro way listed
        rcases List.mem_append.mp listed with first | second
        · exact here.some way first
        · exact rest.some way second
    · exact rest

/-- What the step itself captured, in front of each way, leaves the ways distinct. -/
theorem Distinct.with_own {ways : List (List Capture)} (distinct : Distinct ways) {t : Tree}
    (beneath : ∀ way ∈ ways, ∀ capture ∈ way, capture.place ≠ place) :
    Distinct (ways.map (s.own place t ++ ·)) := by
  have kept : ∀ a ∈ ways, ∀ b, Capture.within a b = false →
      Capture.within (s.own place t ++ a) (s.own place t ++ b) = false := by
    intro a listed b apart
    obtain ⟨c, among, alone⟩ := List.all_eq_false.mp apart
    rw [Capture.within, List.all_eq_false]
    refine ⟨c, List.mem_append_right _ among, fun within => ?_⟩
    obtain ⟨d, other, same⟩ := List.any_eq_true.mp within
    rcases List.mem_append.mp other with own | other
    · obtain ⟨name, -, rfl⟩ := List.mem_map.mp own
      exact beneath a listed c among (of_decide_eq_true (Bool.and_eq_true_iff.mp same).2)
    · exact alone (List.any_eq_true.mpr ⟨d, other, same⟩)
  refine ⟨List.pairwise_map.mpr (distinct.apart.imp_of_mem ?_), ?_⟩
  · intro a b first second both
    exact ⟨kept a first b both.1, kept b second a both.2⟩
  · intro way listed
    obtain ⟨rest, among, rfl⟩ := List.mem_map.mp listed
    exact List.append_ne_nil_of_right_ne_nil _ (distinct.some rest among)

/-- The way without the places of its nodes. -/
def bare (captures : List Capture) : Way := captures.map fun capture => (capture.name, capture.node)

theorem bare_own_append (t : Tree) (way : List Capture) :
    bare (s.own place t ++ way) = s.demand.captures.map (·, t) ++ bare way := by
  simp [bare, Step.own]

theorem waysAt_of_not_fits {t : Tree} (not : s.fits t = false) : waysAt s t = [] := by
  obtain ⟨label, children⟩ := t
  rw [waysAt, not, if_neg Bool.false_ne_true]

theorem bare_foundFrom (same : ∀ place t, s.fits t = true → (matchNode s place t).map bare = waysAt s t) (i : Nat)
    (children : List Tree) : (foundFrom s place i children).map bare = children.flatMap (waysAt s) := by
  induction children generalizing i with
  | nil => rfl
  | cons t later ih =>
    rw [foundFrom, List.map_append, ih, List.flatMap_cons, foundAt]
    cases fits : s.fits t with
    | true => rw [if_pos rfl, same _ t fits]
    | false => rw [if_neg Bool.false_ne_true, waysAt_of_not_fits fits, List.map_nil]

/-- The ways found at a node: distinct, below its place, and those in which the step fits. -/
structure Exact (s : Step) : Prop where
  distinct : ∀ place t, Distinct (matchNode s place t)
  below : Below s
  bare : ∀ place t, s.fits t = true → (matchNode s place t).map bare = waysAt s t

theorem exact_of_plain (plain : s.plain = true) : Exact s := by
  fun_induction Step.plain s with
  | case1 demand =>
    obtain ⟨-, capturing⟩ := Bool.and_eq_true_iff.mp plain
    have found : ∀ place t, matchNode (.step demand []) place t = [(Step.step demand []).own place t] :=
      fun place t => matchNode_of_leaf rfl t
    refine ⟨fun place t => ?_, fun place t way listed capture among => ?_, fun place t fits => ?_⟩
    · rw [found]
      refine ⟨List.pairwise_singleton _ _, fun way listed => ?_⟩
      rw [List.mem_singleton.mp listed, Step.own]
      simpa [Step.demand] using capturing
    · rw [found, List.mem_singleton] at listed
      rw [listed] at among
      obtain ⟨name, -, rfl⟩ := List.mem_map.mp among
      exact List.suffix_refl place
    · rw [found, waysAt_of_leaf rfl, if_pos fits]
      simp [bare, Step.own]
  | case2 demand below ih =>
    obtain ⟨-, plain⟩ := Bool.and_eq_true_iff.mp plain
    have exact := ih plain
    have free := free_of_plain plain
    have found : ∀ place t, matchNode (.step demand [below]) place t =
        (foundFrom below place 0 t.children).map ((Step.step demand [below]).own place t ++ ·) := by
      intro place t
      rw [matchNode_of_single rfl, start_single free,
        matchRow_single free (capturing_of_plain plain) exact.distinct]
    have deeper : ∀ place t, ∀ way ∈ foundFrom below place 0 (Tree.children t), ∀ capture ∈ way,
        ∃ j, (j :: place) <:+ capture.place := by
      intro place t way listed capture among
      obtain ⟨j, -, child, way'⟩ := exists_of_mem_foundFrom listed
      exact ⟨j, exact.below _ _ way way' capture among⟩
    refine ⟨fun place t => ?_, fun place t way listed capture among => ?_, fun place t fits => ?_⟩
    · rw [found]
      apply (distinct_foundFrom exact.below exact.distinct 0 t.children).with_own
      intro way listed capture among same
      obtain ⟨j, inside⟩ := deeper place t way listed capture among
      have longer := inside.length_le
      rw [same, List.length_cons] at longer
      omega
    · rw [found] at listed
      obtain ⟨rest, further, rfl⟩ := List.mem_map.mp listed
      rcases List.mem_append.mp among with own | among
      · obtain ⟨name, -, rfl⟩ := List.mem_map.mp own
        exact List.suffix_refl place
      · obtain ⟨j, inside⟩ := deeper place t rest further capture among
        exact (List.suffix_cons j place).trans inside
    · rw [found, waysAt_of_single rfl, if_pos fits, ← bare_foundFrom exact.bare 0 t.children, List.map_map,
        List.map_map]
      exact List.map_congr_left fun way _ => bare_own_append t way
  | case3 => cases plain

/-! ### Patterns of one node -/

section

variable {source : Array Char}

theorem textsOf_bare (captures : List Capture) (name : String) :
    Predicate.textsOf source (capturesOf (bare captures)) name = Predicate.textsOf source captures name := by
  simp [Predicate.textsOf, capturesOf, bare, List.filter_map, Function.comp_def]

theorem holds_bare (captures : List Capture) (condition : Predicate) :
    condition.holds source (capturesOf (bare captures)) = condition.holds source captures := by
  cases condition <;> simp only [Predicate.holds, textsOf_bare]

/-- The pattern is of one node, with plain steps below it. -/
def Pattern.plain (p : Pattern) : Bool := p.steps.length = 1 && p.steps.all (·.plain)

theorem bare_matchesIn {p : Pattern} (plain : p.plain = true) (root : Tree) :
    (p.matchesIn source root).map bare = root.nodes.flatMap (p.waysAt source) := by
  obtain ⟨single, steps⟩ := Bool.and_eq_true_iff.mp plain
  obtain ⟨⟨demand, children⟩, only⟩ := List.length_eq_one_iff.mp (of_decide_eq_true single)
  rw [only, List.all_cons, List.all_nil, Bool.and_true] at steps
  have exact := exact_of_plain steps
  have conditions : (fun captures => p.predicates.all (·.holds source captures)) =
      (fun way => p.predicates.all (·.holds source (capturesOf way))) ∘ bare := by
    funext captures
    simp only [Function.comp_apply, holds_bare]
  unfold Pattern.matchesIn Pattern.waysAt
  rw [only, search, conditions, ← List.filter_map, List.map_flatMap, List.filter_flatMap]
  refine congrArg root.nodes.flatMap (funext fun t => ?_)
  rw [List.flatMap_singleton]
  cases fits : (Step.step demand children).fits t with
  | true => rw [if_pos rfl, exact.bare [] t fits]
  | false => rw [if_neg Bool.false_ne_true, waysAt_of_not_fits fits, List.map_nil]

end

/-! ### Grouping by name -/

theorem occupied_addNode {found : Match Tree} (occupied : ∀ entry ∈ found, entry.2 ≠ []) (name : String) (node : Tree) :
    ∀ entry ∈ addNode name node found, entry.2 ≠ [] := by
  fun_induction addNode name node found with
  | case1 => simp
  | case2 nodes rest => exact List.forall_mem_cons.mpr ⟨by simp, (List.forall_mem_cons.mp occupied).2⟩
  | case3 other nodes rest different ih =>
    obtain ⟨first, others⟩ := List.forall_mem_cons.mp occupied
    exact List.forall_mem_cons.mpr ⟨first, ih others⟩

theorem pairsOf_addNode (found : Match Tree) (name : String) (node : Tree) :
    (pairsOf (addNode name node found)).Perm (pairsOf found ++ [(name, node)]) := by
  fun_induction addNode name node found with
  | case1 => exact .refl _
  | case2 nodes rest =>
    simp only [pairsOf, List.flatMap_cons, List.map_append, List.append_assoc]
    exact .append_left _ List.perm_append_comm
  | case3 other nodes rest different ih =>
    simp only [pairsOf, List.flatMap_cons, List.append_assoc] at ih ⊢
    exact .append_left _ ih

theorem records_grouped (captures : List Capture) : Records (grouped captures) (bare captures) := by
  have folded : ∀ (captures : List Capture) (found : Match Tree), (∀ entry ∈ found, entry.2 ≠ []) →
      Records (captures.foldl (fun found capture => addNode capture.name capture.node found) found)
        (pairsOf found ++ bare captures) := by
    intro captures
    induction captures with
    | nil =>
      intro found occupied
      exact ⟨occupied, by simp [bare]⟩
    | cons first rest ih =>
      intro found occupied
      obtain ⟨kept, pairs⟩ := ih _ (occupied_addNode occupied first.name first.node)
      refine ⟨kept, pairs.trans ?_⟩
      have moved := (pairsOf_addNode found first.name first.node).append_right (bare rest)
      rwa [List.append_assoc] at moved
  exact folded captures [] (by simp)

/-! ### The search -/

theorem flatMap_swap_perm {α β γ : Type} (f : α → β → List γ) (as : List α) (bs : List β) :
    (as.flatMap fun a => bs.flatMap (f a)).Perm (bs.flatMap fun b => as.flatMap (f · b)) := by
  induction as with
  | nil => simp
  | cons a rest ih =>
    simp only [List.flatMap_cons]
    exact (List.Perm.append_left _ ih).trans (List.flatMap_append_perm _ _ _)

/-- The search finds the matches of a query with plain patterns. -/
theorem finds_matchesIn {q : Query} (plain : q.patterns.all (·.plain) = true) (source : Array Char) (root : Tree) :
    Finds q source root (q.matchesIn source root) := by
  refine ⟨(q.patterns.flatMap (·.matchesIn source root)).map bare, ?_, ?_⟩
  · have each : ∀ p ∈ q.patterns, (p.matchesIn source root).map bare = root.nodes.flatMap (p.waysAt source) :=
      fun p of => bare_matchesIn (List.all_eq_true.mp plain p of) root
    rw [List.map_flatMap, List.flatMap_congr each]
    exact flatMap_swap_perm (fun p t => p.waysAt source t) q.patterns root.nodes
  · rw [matchesIn, ← List.map_flatMap, List.forall₂_map_left_iff, List.forall₂_map_right_iff, List.forall₂_same]
    exact fun captures _ => records_grouped captures

end SyntaxTally.Query
