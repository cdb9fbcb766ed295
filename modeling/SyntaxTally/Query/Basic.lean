import SyntaxTally.Analyzer.Engine
import SyntaxTally.Query.Reader

/-!
# Queries

Queries over syntax trees, and what they capture.
-/
namespace SyntaxTally

open SyntaxTally.Syntax

structure Query where
  patterns : List Query.Pattern
  /-- The names of all captures, in the order in which they are first written. -/
  captures : List String

namespace Query

/-- Reads the text of a query over trees with the given vocabulary. -/
def ofString? (v : Vocabulary) (text : String) : Except Fault Query :=
  match (readPatterns v (text.length + 1)).run ⟨text.toList, [], []⟩ with
  | .ok (patterns, cursor) => .ok ⟨patterns, cursor.captures⟩
  | .error fault => .error fault

namespace Predicate

/-- With `one` it is enough that one node meets the condition; without any node it is met. -/
def quantify {α : Type} (one : Bool) (meets : α → Bool) (nodes : List α) : Bool :=
  nodes.isEmpty || if one then nodes.any meets else nodes.all meets

def textsOf (source : Array Char) (captures : List Capture) (name : String) : List String :=
  (captures.filter (·.name = name)).map (·.node.textIn source)

def holds (source : Array Char) (captures : List Capture) : Predicate → Bool
  | equalsText positive one name text =>
    quantify one (fun t => (t = text) = positive) (textsOf source captures name)
  | equalsCapture positive one name other =>
    quantify one (fun (a, b) => (a = b) = positive)
      ((textsOf source captures name).zip (textsOf source captures other))
  | occurs positive one name regex =>
    quantify one (fun t => regex.occursIn t = positive) (textsOf source captures name)
  -- A value that differs is enough to satisfy the negated form.
  | anyOf positive name texts =>
    (textsOf source captures name).all fun t => texts.any fun text => (t = text) = positive

end Predicate

/-- The matches of a pattern that satisfy its predicates. -/
def Pattern.matchesIn (p : Pattern) (source : Array Char) (root : Tree) : List (List Capture) :=
  (search p.steps root).filter fun captures => p.predicates.all (·.holds source captures)

/-- Adds a node under its name, which comes last if it is new. -/
def addNode (name : String) (node : Tree) : Match Tree → Match Tree
  | [] => [(name, [node])]
  | (other, nodes) :: rest =>
    if other = name then (other, nodes ++ [node]) :: rest else (other, nodes) :: addNode name node rest

/-- The captured nodes by their names. -/
def grouped (captures : List Capture) : Match Tree :=
  captures.foldl (fun found capture => addNode capture.name capture.node found) []

/-- The matches of a query, one pattern after another. -/
def matchesIn (q : Query) (source : Array Char) (root : Tree) : List (Match Tree) :=
  q.patterns.flatMap fun p => (p.matchesIn source root).map grouped

end Query

end SyntaxTally
