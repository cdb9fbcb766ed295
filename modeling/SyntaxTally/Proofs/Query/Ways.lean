import Mathlib.Data.List.Forall2
import SyntaxTally.Proofs.Query.Tally
import SyntaxTally.Query.Basic

/-!
# Ways in which patterns fit

What the matches of a query are, whoever finds them. A step fits a node in as many ways as there are children, in their
order, for the steps below it. A search is right if it has one match for each way in which a pattern fits a node
(`Finds`), in any order, and then it captured as often under a name as the ways at all nodes do (`captured_eq_count`).

Steps that may be left out or repeated, and steps that ask for a place among their siblings, are left aside here.
-/
namespace SyntaxTally.Query

open SyntaxTally.Syntax

/-- What one match captured, each node with its name. -/
abbrev Way := List (String × Tree)

mutual

def waysAt (s : Step) : Tree → List Way
  | .node label children =>
    if s.fits (.node label children) then
      (waysAmong s.children children).map (s.demand.captures.map (·, .node label children) ++ ·)
    else []

/-- One way for each choice of siblings that fit the steps, in the order of both. -/
def waysAmong : List Step → List Tree → List Way
  | [], _ => [[]]
  | _ :: _, [] => []
  | s :: rest, t :: later =>
    (waysAt s t).flatMap (fun way => (waysAmong rest later).map (way ++ ·)) ++ waysAmong (s :: rest) later

end

/-- The captures of a way, for the conditions of a pattern. -/
def capturesOf (way : Way) : List Capture := way.map fun (name, node) => ⟨name, [], node⟩

/-- The ways in which a pattern of one node fits the node and its conditions hold. -/
def Pattern.waysAt (p : Pattern) (source : Array Char) (t : Tree) : List Way :=
  (p.steps.flatMap (Query.waysAt · t)).filter fun way => p.predicates.all (·.holds source (capturesOf way))

def waysOf (q : Query) (source : Array Char) (t : Tree) : List Way := q.patterns.flatMap (·.waysAt source t)

/-- The match holds what was captured in this way: under each name its nodes, and no name without a node. -/
structure Records (found : Match Tree) (way : Way) : Prop where
  occupied : ∀ entry ∈ found, entry.2 ≠ []
  pairs : (pairsOf found).Perm way

/-- The matches are those of the query in the tree: one for each way in which one of its patterns fits a node. -/
def Finds (q : Query) (source : Array Char) (tree : Tree) (found : List (Match Tree)) : Prop :=
  ∃ ways : List Way, ways.Perm (tree.nodes.flatMap (q.waysOf source)) ∧ List.Forall₂ Records found ways

/-- The names under which the ways at the node capture. -/
def Pattern.namesAt (p : Pattern) (source : Array Char) (t : Tree) : List String :=
  (p.waysAt source t).flatMap (·.map (·.1))

def namesAt (q : Query) (source : Array Char) (t : Tree) : List String := q.patterns.flatMap (·.namesAt source t)

/-! ### What the matches captured -/

variable {q : Query} {source : Array Char} {tree t : Tree} {found : List (Match Tree)} {name : String}

theorem Finds.occupied (finds : Finds q source tree found) : ∀ m ∈ found, ∀ entry ∈ m, entry.2 ≠ [] := by
  obtain ⟨ways, -, records⟩ := finds
  intro m of
  induction records with
  | nil => cases of
  | cons here later ih =>
    rcases List.mem_cons.mp of with rfl | of
    · exact here.occupied
    · exact ih of

theorem pairs_of_records {ways : List Way} (records : List.Forall₂ Records found ways) :
    (found.flatMap pairsOf).Perm ways.flatten := by
  induction records with
  | nil => exact .refl _
  | cons here later ih => exact here.pairs.append ih

theorem map_names (ways : List Way) : ways.flatten.map (·.1) = ways.flatMap (·.map (·.1)) := by
  rw [List.map_flatten, List.flatMap_def]

theorem namesAt_eq : q.namesAt source t = (q.waysOf source t).flatMap (·.map (·.1)) := by
  rw [waysOf, List.flatMap_assoc]
  rfl

/-- The matches captured as often under a name as the ways at the nodes of the tree do. -/
theorem Finds.captured_eq_count (finds : Finds q source tree found) (name : String) :
    captured name found = (tree.nodes.flatMap (q.namesAt source)).count name := by
  obtain ⟨ways, all, records⟩ := finds
  have names : tree.nodes.flatMap (q.namesAt source) =
      (tree.nodes.flatMap (q.waysOf source)).flatten.map (·.1) := by
    rw [map_names, List.flatMap_assoc]
    exact congrArg tree.nodes.flatMap (funext fun t => namesAt_eq)
  rw [captured, ((pairs_of_records records).trans all.flatten).countP_eq, names, List.count, List.countP_map]
  rfl

/-! ### Names -/

namespace Step

mutual

/-- The names under which the step and those below it capture. -/
def names : Step → List String
  | step demand children => demand.captures ++ namesOf children

def namesOf : List Step → List String
  | [] => []
  | s :: rest => names s ++ namesOf rest

end

end Step

mutual

theorem name_mem_of_waysAt (s : Step) (t : Tree) {way : Way} (fits : way ∈ waysAt s t) {pair : String × Tree}
    (among : pair ∈ way) : pair.1 ∈ s.names := by
  obtain ⟨label, children⟩ := t
  obtain ⟨demand, steps⟩ := s
  rw [waysAt] at fits
  split at fits
  · obtain ⟨rest, below, rfl⟩ := List.mem_map.mp fits
    rw [Step.names, List.mem_append]
    rcases List.mem_append.mp among with here | there
    · obtain ⟨name, listed, rfl⟩ := List.mem_map.mp here
      exact .inl listed
    · exact .inr (name_mem_of_waysAmong steps children below there)
  · cases fits

theorem name_mem_of_waysAmong (steps : List Step) (children : List Tree) {way : Way}
    (fits : way ∈ waysAmong steps children) {pair : String × Tree} (among : pair ∈ way) :
    pair.1 ∈ Step.namesOf steps := by
  match steps, children with
  | [], _ =>
    rw [waysAmong] at fits
    rw [List.mem_singleton.mp fits] at among
    cases among
  | _ :: _, [] =>
    rw [waysAmong] at fits
    cases fits
  | s :: rest, t :: later =>
    rw [waysAmong] at fits
    rcases List.mem_append.mp fits with taken | passed
    · obtain ⟨first, here, joined⟩ := List.mem_flatMap.mp taken
      obtain ⟨others, there, rfl⟩ := List.mem_map.mp joined
      rw [Step.namesOf, List.mem_append]
      rcases List.mem_append.mp among with among | among
      · exact .inl (name_mem_of_waysAt s t here among)
      · exact .inr (name_mem_of_waysAmong rest later there among)
    · exact name_mem_of_waysAmong (s :: rest) later passed among

end

theorem Step.names_subset {s : Step} {steps : List Step} (listed : s ∈ steps) : s.names ⊆ namesOf steps := by
  induction steps with
  | nil => cases listed
  | cons first rest ih =>
    rw [namesOf]
    rcases List.mem_cons.mp listed with rfl | later
    · exact List.subset_append_left _ _
    · exact List.subset_append_of_subset_right _ (ih later)

theorem Pattern.name_mem_of_namesAt {p : Pattern} (among : name ∈ p.namesAt source t) :
    name ∈ Step.namesOf p.steps := by
  obtain ⟨way, kept, named⟩ := List.mem_flatMap.mp among
  obtain ⟨pair, inside, rfl⟩ := List.mem_map.mp named
  obtain ⟨s, listed, fits⟩ := List.mem_flatMap.mp (List.mem_filter.mp kept).1
  exact Step.names_subset listed (name_mem_of_waysAt s t fits inside)

/-! ### One step below a node -/

theorem waysAmong_single (s : Step) (children : List Tree) : waysAmong [s] children = children.flatMap (waysAt s) := by
  induction children with
  | nil => rw [waysAmong]; rfl
  | cons t later ih =>
    rw [waysAmong, waysAmong, ih, List.flatMap_cons]
    simp

theorem waysAt_of_leaf {s : Step} (leaf : s.children = []) (t : Tree) :
    waysAt s t = if s.fits t then [s.demand.captures.map (·, t)] else [] := by
  obtain ⟨label, children⟩ := t
  rw [waysAt, leaf, waysAmong, List.map_singleton, List.append_nil]

theorem waysAt_of_single {s below : Step} (single : s.children = [below]) (t : Tree) :
    waysAt s t =
      if s.fits t then (t.children.flatMap (waysAt below)).map (s.demand.captures.map (·, t) ++ ·) else [] := by
  obtain ⟨label, children⟩ := t
  rw [waysAt, single, waysAmong_single]
  rfl

theorem fits_of_mem_waysAt {s : Step} {way : Way} (fits : way ∈ waysAt s t) : s.fits t = true := by
  obtain ⟨label, children⟩ := t
  rw [waysAt] at fits
  split at fits
  · assumption
  · cases fits

end SyntaxTally.Query
