import SyntaxTally.Query.Pattern

/-!
# Matching

Matching patterns in a tree. A row of siblings is read from left to right by threads, each at a step
of the pattern with what it has captured so far. A thread that captured no more than another one at
the same step is dropped, so options and repetitions take as much as they can.
-/
namespace SyntaxTally.Query

open SyntaxTally.Syntax

/-- A captured node. The place counts children down from where the match began, and tells nodes with
the same text apart. -/
structure Capture where
  name : String
  place : List Nat
  node : Tree

namespace Capture

def same (a b : Capture) : Bool := a.name = b.name && a.place = b.place

/-- All of `inner` was captured in `outer` too. -/
def within (inner outer : List Capture) : Bool := inner.all (fun c => outer.any c.same)

end Capture

structure Thread where
  step : Nat
  /-- The step has to fit the next sibling. -/
  next : Bool
  captures : List Capture

namespace Thread

/-- The steps a thread stands at when it comes to a step, jumps taken. -/
def arrive (steps : List Step) : Nat → Nat → Bool → List (Nat × Bool)
  | 0, _, _ => []
  | fuel + 1, i, next =>
    match steps[i]? with
    | none => [(i, next)]
    | some s =>
      match s.demand.other with
      | none => [(i, next)]
      | some other =>
        let next' := next || s.demand.otherNext
        if s.demand.jump then arrive steps fuel other next
        else if s.demand.through then arrive steps fuel (i + 1) next ++ arrive steps fuel other next'
        else (i, next) :: arrive steps fuel other next'

def start (steps : List Step) : List Thread :=
  (arrive steps (2 * steps.length + 2) 0 false).map fun (i, next) => ⟨i, next, []⟩

/-- Drops each thread that captured no more than another one at the same step. -/
def prune (threads : List Thread) : List Thread :=
  threads.foldl (fun kept t =>
    if kept.any (fun k => k.step = t.step && Capture.within t.captures k.captures) then kept
    else kept.filter (fun k => !(k.step = t.step && Capture.within k.captures t.captures)) ++ [t]) []

/-- Splits off the threads at the end of the row that no other thread may still outdo. -/
def settle (length : Nat) (threads : List Thread) : List (List Capture) × List Thread :=
  let indexed := threads.zipIdx
  let done := indexed.filter fun (t, i) => t.step = length &&
    !indexed.any (fun (u, j) => i ≠ j && Capture.within t.captures u.captures)
  (done.map (·.1.captures),
    (indexed.filter fun (_, i) => !done.any (fun d => d.2 = i)).map (·.1))

/-- One thread meets one sibling. `inner` gives the ways in which a step's children fit the sibling,
with the captures of the step itself. -/
def meet (steps : List Step) (inner : Step → List (List Capture)) (t : Tree) (later : List Tree)
    (thread : Thread) : List Thread :=
  match steps[thread.step]? with
  | none => [thread]
  | some s =>
    let fits := s.fits t && !(s.demand.last && later.any (·.named))
    let laterMay := !later.isEmpty && !((s.demand.immediate && t.named) || thread.next) &&
      s.demand.field.all (fun name => t.field ≠ some name || later.any (·.field = some name))
    if fits then
      let close := (match s.demand.test with | .any => true | _ => false) &&
        steps[thread.step + 1]?.any (·.demand.immediate)
      let taken := (inner s).flatMap fun captures =>
        (arrive steps (2 * steps.length + 2) (thread.step + 1) close).map fun (i, next) =>
          ⟨i, next, thread.captures ++ captures⟩
      taken ++ if laterMay && (s.capturing || !s.children.isEmpty) then [thread] else []
    else if laterMay then [thread] else []

end Thread

mutual

/-- The ways in which a step fits a node and its children. -/
def matchNode (s : Step) (place : List Nat) : Tree → List (List Capture)
  | .node label children =>
    let own := s.demand.captures.map fun name => ⟨name, place, .node label children⟩
    match s.children with
    | [] => [own]
    | steps => (matchRow steps place 0 (Thread.start steps) children).map (own ++ ·)

/-- The ways in which the threads get through a row of siblings, the first of which is number `i`. -/
def matchRow (steps : List Step) (place : List Nat) (i : Nat) (threads : List Thread) :
    List Tree → List (List Capture)
  | [] => (threads.filter (·.step = steps.length)).map (·.captures)
  | t :: later =>
    let moved := threads.flatMap
      (Thread.meet steps (fun s => matchNode s (i :: place) t) t later)
    let (done, going) := Thread.settle steps.length (Thread.prune moved)
    match going with
    | [] => done
    | _ => done ++ matchRow steps place (i + 1) going later

end

/-- The steps at which a match of the row may begin. -/
def beginnings (steps : List Step) : Nat → Nat → List Nat
  | 0, _ => []
  | fuel + 1, i =>
    match steps[i]? with
    | none => []
    | some s => i :: (s.demand.other.map (beginnings steps fuel)).getD []

/-- The matches of a pattern among siblings, each of which may begin one. -/
def searchRow (steps : List Step) (i : Nat) (threads : List Thread) : List Tree → List (List Capture)
  | [] => (threads.filter (·.step = steps.length)).map (·.captures)
  | t :: later =>
    let fresh := (beginnings steps steps.length 0).filter fun b =>
      steps[b]?.any (·.fits t) && !threads.any (·.step = b)
    let threads := threads ++ fresh.map fun b => ⟨b, false, []⟩
    let moved := threads.flatMap (Thread.meet steps (fun s => matchNode s [i] t) t later)
    let (done, going) := Thread.settle steps.length (Thread.prune moved)
    done ++ searchRow steps (i + 1) going later

mutual

/-- The matches of a pattern among the children of every node. -/
def searchBelow (steps : List Step) : Tree → List (List Capture)
  | .node _ children => searchRow steps 0 [] children ++ searchAll steps children

def searchAll (steps : List Step) : List Tree → List (List Capture)
  | [] => []
  | t :: rest => searchBelow steps t ++ searchAll steps rest

end

/-- All matches of a pattern in a tree. A pattern of one node is looked for at each node on its own. -/
def search (steps : List Step) (root : Tree) : List (List Capture) :=
  match steps with
  | [.step demand children] =>
    root.nodes.flatMap fun t =>
      if (Step.step demand children).fits t then matchNode (.step demand children) [] t else []
  | _ => searchRow steps 0 [] [root] ++ searchBelow steps root

end SyntaxTally.Query
