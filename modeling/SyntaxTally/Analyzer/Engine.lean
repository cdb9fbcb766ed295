import SyntaxTally.Counts
import SyntaxTally.Language.Basic

/-!
# Engines

An engine reads queries and sources, and finds the one in the other. The analysis of files works with any.
-/
namespace SyntaxTally

/-- The nodes that each name of a query got in one match. -/
abbrev Match (ν : Type) := List (String × List ν)

structure Engine where
  Query : Type
  Tree : Type
  Node : Type
  /-- Reads a query over the trees of a language, or says why it cannot. -/
  compile : Language → String → Except String Query
  /-- How many names a query captures under. -/
  captureTotal : Query → Nat
  /-- The tree of a source, if there is one. -/
  parse : Language → List UInt8 → Option Tree
  search : Query → Tree → List (Match Node)

/-- How many nodes each name got in all matches. -/
def captureCounts {ν : Type} (found : List (Match ν)) : Counts :=
  .ofEntries (found.flatten.map fun (name, nodes) => (name, nodes.length))

end SyntaxTally
