import SyntaxTally.Language.Engine

/-!
# The query for Python

The patterns that the text of the query for Python stands for (`ofString?_python`). They are found by reading the
text, and compared with those written here piece by piece.
-/
namespace SyntaxTally.Query

open SyntaxTally.Syntax

/-! ### Comparing queries -/

namespace Test

mutual

def same : Test → Test → Bool
  | named a, named b | token a, token b => a = b
  | anyNamed, anyNamed | any, any | never, never => true
  | super a kind, super b other => a = b && kind = other
  | oneOf tests, oneOf others => sameAll tests others
  | _, _ => false

def sameAll : List Test → List Test → Bool
  | [], [] => true
  | a :: rest, b :: others => a.same b && sameAll rest others
  | _, _ => false

end

mutual

theorem eq_of_same {a b : Test} (alike : a.same b = true) : a = b := by
  match a, b with
  | named _, named _ | token _, token _ =>
    simp only [same, decide_eq_true_eq] at alike
    rw [alike]
  | anyNamed, anyNamed | any, any | never, never => rfl
  | super _ _, super _ _ =>
    simp only [same, Bool.and_eq_true, decide_eq_true_eq] at alike
    rw [alike.1, alike.2]
  | oneOf _, oneOf _ =>
    rw [same] at alike
    rw [eq_of_sameAll alike]

theorem eq_of_sameAll {a b : List Test} (alike : sameAll a b = true) : a = b := by
  match a, b with
  | [], [] => rfl
  | _ :: _, _ :: _ =>
    rw [sameAll, Bool.and_eq_true] at alike
    rw [eq_of_same alike.1, eq_of_sameAll alike.2]

end

end Test

/-- The marks of a demand, of which each is set or not. -/
def Demand.marks (d : Demand) : List Bool := [d.immediate, d.last, d.otherNext, d.through, d.jump]

def Demand.same (a b : Demand) : Bool :=
  a.test.same b.test && (a.field = b.field && a.without = b.without && a.captures = b.captures && a.other = b.other) &&
    a.marks = b.marks

theorem Demand.eq_of_same {a b : Demand} (alike : a.same b = true) : a = b := by
  simp only [Demand.same, Bool.and_eq_true, decide_eq_true_eq] at alike
  obtain ⟨⟨test, rest⟩, marks⟩ := alike
  have tests := Test.eq_of_same test
  cases a
  cases b
  simp_all [Demand.marks]

namespace Step

mutual

def same : Step → Step → Bool
  | step a children, step b others => a.same b && sameAll children others

def sameAll : List Step → List Step → Bool
  | [], [] => true
  | a :: rest, b :: others => a.same b && sameAll rest others
  | _, _ => false

end

mutual

theorem eq_of_same {a b : Step} (alike : a.same b = true) : a = b := by
  match a, b with
  | step _ _, step _ _ =>
    rw [same, Bool.and_eq_true] at alike
    rw [Demand.eq_of_same alike.1, eq_of_sameAll alike.2]

theorem eq_of_sameAll {a b : List Step} (alike : sameAll a b = true) : a = b := by
  match a, b with
  | [], [] => rfl
  | _ :: _, _ :: _ =>
    rw [sameAll, Bool.and_eq_true] at alike
    rw [eq_of_same alike.1, eq_of_sameAll alike.2]

end

end Step

/-- Conditions without regular expressions are compared. -/
def Predicate.same : Predicate → Predicate → Bool
  | equalsText positive one name text, equalsText positive' one' name' text' =>
    (positive, one, name, text) = (positive', one', name', text')
  | equalsCapture positive one name other, equalsCapture positive' one' name' other' =>
    (positive, one, name, other) = (positive', one', name', other')
  | anyOf positive name texts, anyOf positive' name' texts' => (positive, name, texts) = (positive', name', texts')
  | _, _ => false

theorem Predicate.eq_of_same {a b : Predicate} (alike : a.same b = true) : a = b := by
  match a, b with
  | equalsText .., equalsText .. | equalsCapture .., equalsCapture .. | anyOf .., anyOf .. =>
    have parts := of_decide_eq_true alike
    simp_all

/-- The patterns are the same one by one, with their conditions. -/
def samePatterns : List Pattern → List Pattern → Bool
  | [], [] => true
  | ⟨steps, []⟩ :: rest, ⟨others, []⟩ :: more => Step.sameAll steps others && samePatterns rest more
  | ⟨steps, [condition]⟩ :: rest, ⟨others, [other]⟩ :: more =>
    Step.sameAll steps others && condition.same other && samePatterns rest more
  | _, _ => false

theorem eq_of_samePatterns {a b : List Pattern} (alike : samePatterns a b = true) : a = b := by
  fun_induction samePatterns a b with
  | case1 => rfl
  | case2 steps rest others more ih =>
    obtain ⟨here, later⟩ := Bool.and_eq_true_iff.mp alike
    rw [Step.eq_of_sameAll here, ih later]
  | case3 steps condition rest others other more ih =>
    obtain ⟨here, later⟩ := Bool.and_eq_true_iff.mp alike
    obtain ⟨here, met⟩ := Bool.and_eq_true_iff.mp here
    rw [Step.eq_of_sameAll here, Predicate.eq_of_same met, ih later]
  | case4 => cases alike

/-- The characters are read as the query. -/
def readsAs (v : Vocabulary) (text : List Char) (q : Query) : Bool :=
  match (readPatterns v (text.length + 1)).run ⟨text, [], []⟩ with
  | .ok (patterns, cursor) => samePatterns patterns q.patterns && cursor.captures = q.captures
  | .error _ => false

theorem ofString?_of_readsAs {v : Vocabulary} {text : String} {q : Query} (reads : readsAs v text.toList q = true) :
    ofString? v text = .ok q := by
  unfold readsAs at reads
  unfold ofString?
  rw [← String.length_toList]
  cases done : (readPatterns v (text.toList.length + 1)).run ⟨text.toList, [], []⟩ with
  | error fault =>
    rw [done] at reads
    cases reads
  | ok result =>
    obtain ⟨patterns, cursor⟩ := result
    rw [done] at reads
    obtain ⟨alike, named⟩ := Bool.and_eq_true_iff.mp reads
    dsimp only
    rw [eq_of_samePatterns alike, of_decide_eq_true named]

/-! ### The patterns -/

/-- All nodes that pass the test, captured under the name. -/
def nodesOf (test : Test) (name : String) : Pattern := ⟨[.step { test, captures := [name] } []], []⟩

/-- A named node of the kind in the field, captured under the name. -/
def Step.captured (field kind name : String) : Step :=
  .step { test := .named kind, field := some field, captures := [name] } []

/-- The child in the field of a node of the kind, captured under the name. -/
def childOf (parent field name : String) : Pattern :=
  ⟨[.step { test := .named parent } [.captured field "identifier" name]], []⟩

def functionCall : Pattern := childOf "call" "function" "function.call"

/-- A call of a method, which is an attribute of something. -/
def methodCall : Pattern :=
  ⟨[.step { test := .named "call" }
    [.step { test := .named "attribute", field := some "function" }
      [.captured "attribute" "identifier" "function.method.call"]]], []⟩

/-- The functions that are counted as built in. -/
def builtins : List String := ["print", "len", "range", "open", "isinstance", "super"]

/-- A call of a built-in function, captured with the function. -/
def builtinCall : Pattern :=
  ⟨[.step { test := .named "call", captures := ["function.builtin"] } [.captured "function" "identifier" "_callee"]],
    [.anyOf true "_callee" builtins]⟩

def keywords : List String :=
  ["def", "class", "return", "if", "elif", "else", "for", "while", "in", "import", "from", "as", "with", "try",
    "except", "finally", "raise", "pass", "lambda", "not", "and", "or", "is"]

def leading : List Pattern :=
  [nodesOf (.named "comment") "comment", nodesOf (.named "string") "string", nodesOf (.named "integer") "number",
    nodesOf (.named "float") "number", nodesOf (.oneOf [.named "true", .named "false"]) "boolean",
    nodesOf (.named "none") "constant.builtin", childOf "function_definition" "name" "function",
    childOf "class_definition" "name" "type", nodesOf (.named "decorator") "attribute",
    ⟨[.step { test := .named "parameters" }
      [.step { test := .named "identifier", captures := ["variable.parameter"] } []]], []⟩]

def trailing : List Pattern :=
  [nodesOf (.named "import_statement") "import", nodesOf (.named "import_from_statement") "import",
    nodesOf (.oneOf (keywords.map .token)) "keyword"]

def python : Query where
  patterns := leading ++ [functionCall, methodCall, builtinCall] ++ trailing
  captures := ["comment", "string", "number", "boolean", "constant.builtin", "function", "type", "attribute",
    "variable.parameter", "function.call", "function.method.call", "_callee", "function.builtin", "import", "keyword"]

theorem toList_lines (lines : List String) :
    (String.join (lines.map (· ++ "\n"))).toList = lines.flatMap fun line => line.toList ++ ['\n'] := by
  rw [String.toList_join]
  simp [List.flatMap_map]

theorem ofString?_python : ofString? Language.python.vocabulary Language.python.shippedQuery = .ok python := by
  apply ofString?_of_readsAs
  -- Line by line the characters of the text are within reach of evaluation.
  rw [Language.shippedQuery, Language.Shipped.python, toList_lines]
  decide +kernel

end SyntaxTally.Query
