import SyntaxTally.Proofs.Query.Match
import SyntaxTally.Proofs.Query.Shipped

/-!
# Calls

What the query for Python counts of calls. The children of a call in the field of its function are counted one by
one, and where there is one at most, the built-in functions that are called are counted with their calls, one for one,
and a call is a call of a function or of a method. This rests on what the matches are and not on who finds them
(`calls_counted`).
-/
namespace SyntaxTally

open SyntaxTally.Syntax

/-- No node of the tree has two children in the field. -/
def Syntax.Tree.OnceAt (name : String) (t : Tree) : Prop :=
  ∀ node ∈ t.nodes, node.children.countP (·.field = some name) ≤ 1

instance (name : String) (t : Tree) : Decidable (t.OnceAt name) := inferInstanceAs (Decidable (∀ node ∈ t.nodes, _))

namespace Query

/-! ### One node -/

def isCall (t : Tree) : Bool := t.named && t.kind = "call"

/-- The function of a call, given by its name. -/
def isCallee (t : Tree) : Bool := t.named && t.kind = "identifier" && t.field = some "function"

def isBuiltin (source : Array Char) (t : Tree) : Bool := builtins.contains (t.textIn source)

/-- A call whose function is one of the built-in ones. -/
def callsBuiltin (source : Array Char) (t : Tree) : Bool :=
  isCall t && t.children.any fun child => isCallee child && isBuiltin source child

variable {source : Array Char} {t : Tree}

theorem waysAt_captured (field kind name : String) (t : Tree) :
    waysAt (.captured field kind name) t =
      if t.named && t.kind = kind && t.field = some field then [[(name, t)]] else [] := by
  rw [waysAt_of_leaf rfl]
  simp [Step.captured, Step.fits, Step.demand, Test.accepts]

/-- A pattern of a node with one captured child in a field: each child that fits and passes gives the names once. -/
theorem namesAt_childOf {parent field kind name : String} {own : List String} {conditions : List Predicate}
    (passes : Tree → Bool)
    (same : ∀ child, conditions.all (·.holds source (capturesOf (own.map (·, t) ++ [(name, child)]))) = passes child) :
    Pattern.namesAt ⟨[.step { test := .named parent, captures := own } [.captured field kind name]], conditions⟩
        source t =
      if t.named && t.kind = parent then
        (List.replicate (t.children.countP fun child =>
            (child.named && child.kind = kind && child.field = some field) && passes child)
          (own ++ [name])).flatten
      else [] := by
  have fits : (Step.step { test := .named parent, captures := own } [.captured field kind name]).fits t =
      (t.named && t.kind = parent) := by
    simp [Step.fits, Step.demand, Test.accepts]
  unfold Pattern.namesAt Pattern.waysAt
  rw [List.flatMap_singleton, waysAt_of_single rfl, fits]
  split
  · simp only [Step.demand]
    generalize t.children = children
    induction children with
    | nil => rfl
    | cons child later ih =>
      rw [List.flatMap_cons, List.map_append, List.filter_append, List.flatMap_append, ih, List.countP_cons,
        waysAt_captured]
      cases fits : (child.named && child.kind = kind && child.field = some field) with
      | false => simp
      | true =>
        cases passing : passes child with
        | false => simp [same, passing]
        | true => simp [same, passing, List.replicate_succ, Function.comp_def]
  · rfl

theorem namesAt_functionCall :
    functionCall.namesAt source t =
      if isCall t then (List.replicate (t.children.countP isCallee) ["function.call"]).flatten else [] := by
  unfold functionCall childOf
  rw [namesAt_childOf (fun _ => true) (fun child => rfl)]
  simp only [Bool.and_true]
  rfl

theorem namesAt_builtinCall :
    builtinCall.namesAt source t =
      if isCall t then
        (List.replicate (t.children.countP fun child => isCallee child && isBuiltin source child)
          ["function.builtin", "_callee"]).flatten
      else [] := by
  have tested : ∀ child : Tree,
      [Predicate.anyOf true "_callee" builtins].all
        (·.holds source (capturesOf (["function.builtin"].map (·, t) ++ [("_callee", child)]))) =
      isBuiltin source child := by
    intro child
    rw [Bool.eq_iff_iff]
    simp [Predicate.holds, Predicate.textsOf, capturesOf, isBuiltin]
  unfold builtinCall
  rw [namesAt_childOf (isBuiltin source) tested]
  rfl

def callNames : List String := ["_callee", "function.builtin", "function.call", "function.method.call"]

/-- The patterns besides those of calls capture under other names. -/
theorem count_namesAt {name : String} (listed : name ∈ callNames) :
    (python.namesAt source t).count name =
      (functionCall.namesAt source t).count name + (methodCall.namesAt source t).count name +
        (builtinCall.namesAt source t).count name := by
  have apart : ∀ p ∈ leading ++ trailing, ∀ name ∈ callNames, name ∉ Step.namesOf p.steps := by decide +kernel
  have none : ∀ patterns ⊆ leading ++ trailing, (patterns.flatMap (·.namesAt source t)).count name = 0 := by
    intro patterns part
    rw [List.count_eq_zero]
    intro among
    obtain ⟨p, of, named⟩ := List.mem_flatMap.mp among
    exact apart p (part of) name listed (Pattern.name_mem_of_namesAt named)
  simp only [namesAt, python, List.flatMap_append, List.count_append,
    none leading (List.subset_append_left ..), none trailing (List.subset_append_right ..)]
  simp [List.count_append, Nat.add_assoc]

theorem count_flatten_replicate (n : Nat) (names : List String) (name : String) :
    (List.replicate n names).flatten.count name = n * names.count name := by
  simp [List.count_flatten]

theorem count_eq_zero_of_not_mem {p : Pattern} {name : String} (absent : name ∉ Step.namesOf p.steps) :
    (p.namesAt source t).count name = 0 :=
  List.count_eq_zero.mpr fun among => absent (Pattern.name_mem_of_namesAt among)

/-- How many functions of the call are given by the name of a built-in one. -/
def builtinCallees (source : Array Char) (t : Tree) : Nat :=
  if isCall t then t.children.countP fun child => isCallee child && isBuiltin source child else 0

theorem count_builtinCall {name : String} (listed : name ∈ ["_callee", "function.builtin"]) :
    (python.namesAt source t).count name = builtinCallees source t := by
  have other : name ∈ callNames ∧ name ∉ Step.namesOf functionCall.steps ∧ name ∉ Step.namesOf methodCall.steps ∧
      ["function.builtin", "_callee"].count name = 1 := by
    revert name
    decide +kernel
  obtain ⟨call, first, second, once⟩ := other
  rw [count_namesAt call, count_eq_zero_of_not_mem first, count_eq_zero_of_not_mem second, Nat.zero_add,
    namesAt_builtinCall, builtinCallees]
  split
  · rw [count_flatten_replicate, once, Nat.mul_one]
  · rfl

theorem count_functionCall :
    (python.namesAt source t).count "function.call" = if isCall t then t.children.countP isCallee else 0 := by
  have second : "function.call" ∉ Step.namesOf methodCall.steps := by decide +kernel
  have third : "function.call" ∉ Step.namesOf builtinCall.steps := by decide +kernel
  rw [count_namesAt (by decide), count_eq_zero_of_not_mem second, count_eq_zero_of_not_mem third,
    namesAt_functionCall]
  split
  · rw [count_flatten_replicate]
    simp
  · rfl

theorem builtinCallees_le : builtinCallees source t ≤ (python.namesAt source t).count "function.call" := by
  rw [count_functionCall, builtinCallees]
  split
  · apply List.countP_mono_left
    intro child listed both
    exact (Bool.and_eq_true_iff.mp both).1
  · exact Nat.le_refl 0

/-! ### One function at most -/

theorem builtinCallees_eq (once : t.children.countP (·.field = some "function") ≤ 1) :
    builtinCallees source t = if callsBuiltin source t then 1 else 0 := by
  have few : (t.children.countP fun child => isCallee child && isBuiltin source child) ≤ 1 := by
    refine Nat.le_trans (List.countP_mono_left fun child listed both => ?_) once
    exact (Bool.and_eq_true_iff.mp (Bool.and_eq_true_iff.mp both).1).2
  unfold builtinCallees callsBuiltin
  cases isCall t with
  | false => rfl
  | true =>
    rw [if_pos rfl, Bool.true_and]
    by_cases some : (t.children.any fun child => isCallee child && isBuiltin source child) = true
    · have positive := List.countP_pos_iff.mpr (List.any_eq_true.mp some)
      rw [if_pos some]
      omega
    · rw [if_neg some, List.countP_eq_zero]
      intro child listed both
      exact some (List.any_eq_true.mpr ⟨child, listed, both⟩)

theorem exists_callee (among : "function.call" ∈ python.namesAt source t) :
    ∃ child ∈ t.children, isCallee child = true := by
  have positive := List.count_pos_iff.mpr among
  rw [count_functionCall] at positive
  split at positive
  · exact List.countP_pos_iff.mp positive
  · cases positive

theorem exists_method (among : "function.method.call" ∈ python.namesAt source t) :
    ∃ child ∈ t.children, child.field = some "function" ∧ child.kind = "attribute" := by
  have first : "function.method.call" ∉ Step.namesOf functionCall.steps := by decide +kernel
  have third : "function.method.call" ∉ Step.namesOf builtinCall.steps := by decide +kernel
  have positive := List.count_pos_iff.mpr among
  rw [count_namesAt (by decide), count_eq_zero_of_not_mem first, count_eq_zero_of_not_mem third, Nat.zero_add,
    Nat.add_zero, List.count_pos_iff] at positive
  obtain ⟨way, kept, -⟩ := List.mem_flatMap.mp positive
  have found := (List.mem_filter.mp kept).1
  rw [methodCall, List.flatMap_singleton, waysAt_of_single rfl] at found
  split at found
  · obtain ⟨rest, through, -⟩ := List.mem_map.mp found
    obtain ⟨child, listed, way⟩ := List.mem_flatMap.mp through
    have fits := fits_of_mem_waysAt way
    simp only [Step.fits, Step.demand, Test.accepts, Bool.and_eq_true, decide_eq_true_eq] at fits
    obtain ⟨⟨⟨-, kind⟩, field⟩, -⟩ := fits
    exact ⟨child, listed, by simpa using field, kind⟩
  · cases found

theorem eq_of_countP_le_one {meets : Tree → Bool} {row : List Tree} {a b : Tree} (few : row.countP meets ≤ 1)
    (here : a ∈ row) (first : meets a = true) (there : b ∈ row) (second : meets b = true) : a = b := by
  have left := List.mem_filter.mpr ⟨here, first⟩
  have right := List.mem_filter.mpr ⟨there, second⟩
  rw [List.countP_eq_length_filter] at few
  generalize row.filter meets = kept at few left right
  cases kept with
  | nil => cases left
  | cons only rest =>
    obtain rfl : rest = [] := List.eq_nil_of_length_eq_zero (by rw [List.length_cons] at few; omega)
    exact (List.mem_singleton.mp left).trans (List.mem_singleton.mp right).symm

/-- A call is not both of a function by its name and of a method. -/
theorem not_both (once : t.children.countP (·.field = some "function") ≤ 1) :
    ¬ ("function.call" ∈ python.namesAt source t ∧ "function.method.call" ∈ python.namesAt source t) := by
  rintro ⟨function, method⟩
  obtain ⟨callee, here, isCallee⟩ := exists_callee function
  obtain ⟨owned, there, field, kind⟩ := exists_method method
  simp only [Query.isCallee, Bool.and_eq_true, decide_eq_true_eq] at isCallee
  obtain ⟨⟨-, identifier⟩, place⟩ := isCallee
  -- Both stand in the field of the function, where there is one child at most.
  have same : callee = owned := eq_of_countP_le_one once here (by simpa using place) there (by simpa using field)
  rw [same, kind] at identifier
  exact absurd identifier (by decide)

/-! ### The whole tree -/

theorem count_flatMap_le {names : Tree → List String} {a b : String} {nodes : List Tree}
    (each : ∀ t ∈ nodes, (names t).count a ≤ (names t).count b) :
    (nodes.flatMap names).count a ≤ (nodes.flatMap names).count b := by
  induction nodes with
  | nil => exact Nat.le_refl 0
  | cons t rest ih =>
    obtain ⟨here, later⟩ := List.forall_mem_cons.mp each
    have below := ih later
    rw [List.flatMap_cons, List.count_append, List.count_append]
    omega

theorem count_flatMap_eq_countP {names : Tree → List String} {name : String} {holds : Tree → Bool} {nodes : List Tree}
    (each : ∀ t ∈ nodes, (names t).count name = if holds t then 1 else 0) :
    (nodes.flatMap names).count name = nodes.countP holds := by
  induction nodes with
  | nil => rfl
  | cons t rest ih =>
    obtain ⟨here, later⟩ := List.forall_mem_cons.mp each
    rw [List.flatMap_cons, List.count_append, List.countP_cons, here, ih later, Nat.add_comm]

section

variable {tree : Tree} {found : List (Match Tree)} {name : String} (finds : Finds python source tree found)

include finds

theorem number_python (name : String) :
    (captureCounts found).number name = ((tree.nodes.flatMap (python.namesAt source)).count name : Int) := by
  rw [number_captureCounts, finds.captured_eq_count]

theorem number_builtinCall (listed : name ∈ ["_callee", "function.builtin"]) (once : tree.OnceAt "function") :
    (captureCounts found).number name = tree.nodes.countP (callsBuiltin source) := by
  have each : ∀ t ∈ tree.nodes, (python.namesAt source t).count name = if callsBuiltin source t then 1 else 0 := by
    intro t inside
    rw [count_builtinCall listed, builtinCallees_eq (once t inside)]
  rw [number_python finds, count_flatMap_eq_countP each]

theorem number_builtinCall_le :
    (captureCounts found).number "function.builtin" ≤ (captureCounts found).number "function.call" := by
  have each : ∀ t ∈ tree.nodes,
      (python.namesAt source t).count "function.builtin" ≤ (python.namesAt source t).count "function.call" := by
    intro t inside
    rw [count_builtinCall (by decide)]
    exact builtinCallees_le
  rw [number_python finds, number_python finds]
  exact Int.ofNat_le.mpr (count_flatMap_le each)

end

theorem plain_python : python.patterns.all (·.plain) = true := by decide +kernel

/-- Whoever finds the matches of the query for Python, in a tree in which no node has two functions, the built-in
functions that are called are counted as often as their calls, that is once for each call of such a function, and no
more often than the functions called by name. No call is counted both of a function and of a method, and the counts are
those of what is captured at each node. Names that are there have a positive count, which is that of all nodes captured
under them, whatever the order of the matches.

The query is what its text reads as, and the search of this library finds its matches. -/
theorem calls_counted :
    ofString? Language.python.vocabulary Language.python.shippedQuery = .ok python ∧
    (∀ source tree, Finds python source tree (python.matchesIn source tree)) ∧
    ∀ (source : Array Char) (tree : Tree) (found : List (Match Tree)),
      tree.OnceAt "function" → Finds python source tree found →
      (captureCounts found).number "_callee" = (captureCounts found).number "function.builtin" ∧
      (captureCounts found).number "function.builtin" ≤ (captureCounts found).number "function.call" ∧
      (captureCounts found).number "_callee" = tree.nodes.countP (callsBuiltin source) ∧
      (∀ node ∈ tree.nodes,
        ¬ ("function.call" ∈ python.namesAt source node ∧ "function.method.call" ∈ python.namesAt source node)) ∧
      (∀ name, (captureCounts found).number name = ((tree.nodes.flatMap (python.namesAt source)).count name : Int)) ∧
      (∀ name n, (captureCounts found).get? name = some n → 1 ≤ n) ∧
      ∀ others, others.Perm found → ∀ name,
        (captureCounts others).get? name = (captureCounts found).get? name ∧
        (captureCounts others).number name = captured name found := by
  refine ⟨ofString?_python, finds_matchesIn plain_python, fun source tree found once finds => ?_⟩
  have callee : (captureCounts found).number "_callee" = _ := number_builtinCall finds (by decide) once
  refine ⟨?_, number_builtinCall_le finds, callee, ?_, number_python finds, ?_, ?_⟩
  · rw [callee, number_builtinCall finds (by decide) once]
  · intro node inside
    exact not_both (once node inside)
  · intro name n present
    exact one_le_of_get?_captureCounts finds.occupied present
  · intro others order name
    rw [number_captureCounts, captured_perm order]
    exact ⟨get?_captureCounts_perm order name, rfl⟩

/-- Calls in calls and in a format string, and a method with the name of a built-in function. -/
def nestedCalls : List Char := "print(len(f'\x7brange(3)\x7d'), x.open())\n".toList

theorem calls_counted_nestedCalls :
    ∃ tree, Language.python.tree? nestedCalls = some tree ∧ tree.OnceAt "function" ∧
      (captureCounts (python.matchesIn nestedCalls.toArray tree)).number "_callee" = 3 ∧
      (captureCounts (python.matchesIn nestedCalls.toArray tree)).number "function.builtin" = 3 := by
  have three : (Language.python.tree? nestedCalls).map
      (fun tree => (tree.nodes.countP (callsBuiltin nestedCalls.toArray), decide (tree.OnceAt "function"))) =
        some (3, true) := by decide +kernel
  obtain ⟨tree, parsed, counted⟩ := Option.map_eq_some_iff.mp three
  obtain ⟨three, once⟩ := Prod.mk.inj counted
  have once := of_decide_eq_true once
  have finds := calls_counted.2.1 nestedCalls.toArray tree
  obtain ⟨alike, -, number, -⟩ := calls_counted.2.2 nestedCalls.toArray tree _ once finds
  refine ⟨tree, parsed, once, ?_, ?_⟩
  · rw [number, three]
    rfl
  · rw [← alike, number, three]
    rfl

end Query

end SyntaxTally
