import SyntaxTally.Syntax.Tree

/-!
# Patterns of nodes

Patterns of nodes. A pattern describes a row of sibling nodes step by step; a step tests one node and
may describe the row of its children in turn. Options, repetitions and alternatives are jumps between
the steps of one row.
-/
namespace SyntaxTally.Query

open SyntaxTally.Syntax

/-- Which nodes are accepted by their kind. -/
inductive Test where
  | named (kind : String)
  | token (text : String)
  | anyNamed
  | any
  /-- Nodes read as the abstract kind, narrowed to a test if there is one. -/
  | super (name : String) (kind : Option String)
  | oneOf (tests : List Test)
  /-- Damaged nodes, of which a tree has none. -/
  | never

namespace Test

mutual

def accepts (t : Tree) : Test → Bool
  | named kind => t.named && t.kind = kind
  | token text => !t.named && t.kind = text
  | anyNamed => t.named
  | any => true
  | super name kind => t.label.supers.contains name && kind.all (· = t.kind)
  | oneOf tests => acceptsOne t tests
  | never => false

def acceptsOne (t : Tree) : List Test → Bool
  | [] => false
  | test :: rest => accepts t test || acceptsOne t rest

end

end Test

/-- What a step asks of a node and where the row goes on, apart from the node's children. -/
structure Demand where
  test : Test
  field : Option String := none
  /-- Fields the node must not have. -/
  without : List String := []
  /-- No named sibling may be passed over before this node. -/
  immediate : Bool := false
  /-- No named sibling may follow. -/
  last : Bool := false
  captures : List String := []
  /-- Another step of the row at which this one may be left out for. -/
  other : Option Nat := none
  /-- The other step has to fit the very next sibling. -/
  otherNext : Bool := false
  /-- Stands for no node: the row goes on here and at the other step. -/
  through : Bool := false
  /-- Stands for no node: the row goes on at the other step only. -/
  jump : Bool := false

inductive Step where
  | step (demand : Demand) (children : List Step)

namespace Step

def demand : Step → Demand
  | step demand _ => demand

def children : Step → List Step
  | step _ children => children

def withDemand (f : Demand → Demand) : Step → Step
  | step demand children => step (f demand) children

mutual

/-- The step or one below it captures its node. -/
def capturing : Step → Bool
  | step demand children => !demand.captures.isEmpty || anyCapturing children

def anyCapturing : List Step → Bool
  | [] => false
  | s :: rest => capturing s || anyCapturing rest

end

/-- The node itself fits, leaving its children and its place among its siblings aside. -/
def fits (s : Step) (t : Tree) : Bool :=
  s.demand.test.accepts t && s.demand.field.all (t.field = some ·) &&
    s.demand.without.all (fun name => !t.children.any (·.field = some name))

end Step

end SyntaxTally.Query
