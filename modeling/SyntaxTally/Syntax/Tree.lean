/-!
# Syntax trees

Concrete syntax trees. A node knows its kind, whether it is named (a rule of the grammar) or
anonymous (a literal token), the field it fills in its parent, and the stretch of text it covers.
-/
namespace SyntaxTally.Syntax

/-- What a node carries besides its children. Positions count characters from the start of the text;
`supers` are the abstract kinds (such as "expression") the node was read as. -/
structure Label where
  kind : String
  named : Bool
  field : Option String
  supers : List String
  start : Nat
  stop : Nat

inductive Tree where
  | node (label : Label) (children : List Tree)

namespace Tree

def label : Tree → Label
  | node label _ => label

def children : Tree → List Tree
  | node _ children => children

def kind (t : Tree) : String := t.label.kind

def named (t : Tree) : Bool := t.label.named

def field (t : Tree) : Option String := t.label.field

def start (t : Tree) : Nat := t.label.start

def stop (t : Tree) : Nat := t.label.stop

def leaf (kind : String) (named : Bool) (start stop : Nat) : Tree :=
  node ⟨kind, named, none, [], start, stop⟩ []

/-- Puts the tree into a field, unless it already fills one. -/
def inField (name : String) : Tree → Tree
  | node label children => node { label with field := label.field.or (some name) } children

def asSuper (name : String) : Tree → Tree
  | node label children => node { label with supers := name :: label.supers } children

/-! ### All nodes, from the root down -/

mutual

def nodes : Tree → List Tree
  | node label children => node label children :: nodesOf children

def nodesOf : List Tree → List Tree
  | [] => []
  | t :: rest => nodes t ++ nodesOf rest

end

/-- The characters a tree covers in the text it was read from. -/
def textIn (source : Array Char) (t : Tree) : String :=
  String.ofList (source.extract t.start t.stop).toList

/-! ### Comments

Comments stand anywhere between two tokens. Each becomes a child of the smallest node that begins
before it and ends after it, or of the root. -/

mutual

/-- Hangs the extra nodes into the tree; all of them lie inside it. -/
def withExtras (extras : List Tree) : Tree → Tree
  | node label children => node label (weave extras children)

/-- The extras before, between, inside and after a row of sibling trees, in the order of the text. -/
def weave (extras : List Tree) : List Tree → List Tree
  | [] => extras
  | t :: rest =>
    match extras with
    | [] => t :: rest
    | _ =>
      let before := extras.takeWhile (·.start ≤ t.start)
      let behind := extras.dropWhile (·.start ≤ t.start)
      let inside := behind.takeWhile (·.stop ≤ t.stop)
      let after := behind.dropWhile (·.stop ≤ t.stop)
      before ++ withExtras inside t :: weave after rest

end

end Tree

end SyntaxTally.Syntax
