import SyntaxTally.Syntax.Tree

/-!
# Grammars

Grammars as values. A rule says what may stand in the text and which nodes that makes; alternatives
are tried in order and the first that fits is taken. Left recursion is written with `grow`: a head is
read first and then wrapped by the arms that fit behind it.
-/
namespace SyntaxTally.Syntax

/-- One way to go on behind a head that has been read. -/
structure Arm (ρ : Type) where
  /-- The node that takes in the head and the rest, or `none` to leave them side by side. -/
  kind : Option String
  /-- The field of the last head tree in that node. -/
  headField : Option String
  /-- The abstract kind under which the last head tree stands in that node. -/
  headSuper : Option String
  /-- The kinds the last head tree may have; empty for any. -/
  headKinds : List String
  rest : ρ

inductive Rule (ν τ : Type) where
  | nothing
  | token (t : τ)
  | ref (name : ν)
  | seq (first next : Rule ν τ)
  | alt (first otherwise : Rule ν τ)
  | many (item : Rule ν τ)
  | node (kind : String) (named : Bool) (body : Rule ν τ)
  | field (name : String) (body : Rule ν τ)
  | super (name : String) (body : Rule ν τ)
  /-- Looks without reading on: the body has to fit (`wanted`), or must not. -/
  | ahead (wanted : Bool) (body : Rule ν τ)
  /-- Fits if the last tree that the body makes is of one of the kinds. -/
  | only (kinds : List String) (body : Rule ν τ)
  /-- Reads the head, then the first arm that fits behind it: once if not `again`, else as often as
  one fits. -/
  | grow (again : Bool) (head : Rule ν τ) (arms : List (Arm (Rule ν τ)))

namespace Rule

variable {ν τ : Type}

/-- The rules one after another. -/
def row : List (Rule ν τ) → Rule ν τ
  | [] => nothing
  | [r] => r
  | r :: rest => seq r (row rest)

/-- The first of the rules that fits; `last` stands at the end of the list. -/
def first : List (Rule ν τ) → Rule ν τ → Rule ν τ
  | [], last => last
  | r :: rest, last => alt r (first rest last)

/-- Fits nowhere. -/
def never : Rule ν τ := ahead false nothing

def opt (r : Rule ν τ) : Rule ν τ := alt r nothing

def many1 (r : Rule ν τ) : Rule ν τ := seq r (many r)

/-- One or more items with a separator between them. -/
def separated (separator item : Rule ν τ) : Rule ν τ := seq item (many (seq separator item))

end Rule

/-- How the terminals of a grammar stand in a text: `step t i` reads terminal `t` at lexeme `i`;
`start i` and `stop i` are where lexeme `i` begins and ends. -/
structure Lexis (τ : Type) where
  step : τ → Nat → Option (Nat × List Tree)
  start : Nat → Nat
  stop : Nat → Nat

namespace Lexis

variable {τ : Type}

/-- A node over the lexemes from `i` up to, not including, `j`. -/
def wrap (lexis : Lexis τ) (kind : String) (named : Bool) (i j : Nat) (children : List Tree) : Tree :=
  .node ⟨kind, named, none, [], lexis.start i, if i < j then lexis.stop (j - 1) else lexis.start i⟩ children

end Lexis

namespace Arm

variable {ρ : Type}

def accepts (arm : Arm ρ) (head : List Tree) : Bool :=
  arm.headKinds.isEmpty || head.getLast?.any (arm.headKinds.contains ·.kind)

/-- The head as it stands in the arm's node. -/
def adapt (arm : Arm ρ) (head : List Tree) : List Tree :=
  match head.getLast? with
  | none => head
  | some t =>
    let t := match arm.headField with
      | some name => t.inField name
      | none => t
    let t := match arm.headSuper with
      | some name => t.asSuper name
      | none => t
    head.dropLast ++ [t]

end Arm

section

variable {ν τ : Type} (rules : ν → Rule ν τ) (lexis : Lexis τ)

mutual

/-- Reads a rule at a lexeme. The first argument bounds the depth of the reading. -/
def read : Nat → Rule ν τ → Nat → Option (Nat × List Tree)
  | 0, _, _ => none
  | depth + 1, rule, i =>
    match rule with
    | .nothing => some (i, [])
    | .token t => lexis.step t i
    | .ref name => read depth (rules name) i
    | .seq a b =>
      match read depth a i with
      | none => none
      | some (j, xs) =>
        match read depth b j with
        | none => none
        | some (k, ys) => some (k, xs ++ ys)
    | .alt a b =>
      match read depth a i with
      | none => read depth b i
      | found => found
    | .many item =>
      match read depth item i with
      | none => some (i, [])
      | some (j, xs) =>
        -- An item that reads nothing ends the row.
        if j ≤ i then some (i, []) else
        match read depth (.many item) j with
        | none => none
        | some (k, ys) => some (k, xs ++ ys)
    | .node kind named body =>
      match read depth body i with
      | none => none
      | some (j, xs) => some (j, [lexis.wrap kind named i j xs])
    | .field name body =>
      match read depth body i with
      | none => none
      | some (j, xs) => some (j, xs.map (·.inField name))
    | .super name body =>
      match read depth body i with
      | none => none
      | some (j, xs) => some (j, xs.map (·.asSuper name))
    | .ahead wanted body => if (read depth body i).isSome = wanted then some (i, []) else none
    | .only kinds body =>
      match read depth body i with
      | none => none
      | some (j, xs) => if xs.getLast?.any (kinds.contains ·.kind) then some (j, xs) else none
    | .grow again head arms =>
      match read depth head i with
      | none => none
      | some (j, xs) => readArms depth again arms arms i j xs

/-- Wraps the head, which covers the lexemes from `i` to `j`, by the first of the remaining arms that
fits. -/
def readArms : Nat → Bool → List (Arm (Rule ν τ)) → List (Arm (Rule ν τ)) → Nat → Nat → List Tree →
    Option (Nat × List Tree)
  | 0, _, _, _, _, _, _ => none
  | _ + 1, _, _, [], _, j, head => some (j, head)
  | depth + 1, again, arms, arm :: others, i, j, head =>
    match if arm.accepts head then read depth arm.rest j else none with
    | none => readArms depth again arms others i j head
    | some (k, ys) =>
      let trees := match arm.kind with
        | none => arm.adapt head ++ ys
        | some kind => [lexis.wrap kind true i k (arm.adapt head ++ ys)]
      if again then readArms depth again arms arms i k trees else some (k, trees)

end

end

end SyntaxTally.Syntax
