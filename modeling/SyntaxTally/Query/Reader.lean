import SyntaxTally.Query.Match
import SyntaxTally.Query.Regex
import SyntaxTally.Syntax.Vocabulary

/-!
# Reading queries

Queries and their text. A query is a list of patterns, each with the predicates its matches have to
satisfy. Reading a query checks that it speaks of kinds, fields and captures that exist.
-/
namespace SyntaxTally.Query

open SyntaxTally.Syntax

/-- A condition on what a match captured. With `positive` the comparison has to hold, without it to
fail; with `one` it is enough that one captured node meets it. -/
inductive Predicate where
  | equalsText (positive one : Bool) (capture : String) (text : String)
  | equalsCapture (positive one : Bool) (capture other : String)
  | occurs (positive one : Bool) (capture : String) (regex : Regex)
  | anyOf (positive : Bool) (capture : String) (texts : List String)

structure Pattern where
  steps : List Step
  predicates : List Predicate

/-- Why a text is no query. -/
inductive Fault where
  | malformed
  | unknownKind (name : String)
  | unknownField (name : String)
  | unknownCapture (name : String)
  | notAbstract (name : String)
  | impossible
  | wrongArguments (predicate : String)
  | badRegex (text : String)

namespace Fault

def message : Fault → String
  | malformed => "malformed query"
  | unknownKind name => s!"unknown node kind {name}"
  | unknownField name => s!"unknown field {name}"
  | unknownCapture name => s!"unknown capture @{name}"
  | notAbstract name => s!"{name} has no narrower kinds"
  | impossible => "no tree can fit this pattern"
  | wrongArguments predicate => s!"wrong arguments to #{predicate}"
  | badRegex text => s!"bad regular expression {text}"

end Fault

/-! ### The shape of a pattern as it is written -/

inductive Item where
  | node (test : Test) (without : List String) (members : List Item)
  | choice (branches : List Item)
  | group (members : List Item)
  | field (name : String) (item : Item)
  | capture (name : String) (item : Item)
  | optional (item : Item)
  /-- Repeated, at least once if `nonempty`. -/
  | repeated (nonempty : Bool) (item : Item)
  | immediate (item : Item)
  | last (item : Item)

namespace Item

/-- The test of an item that asks for nothing but a kind. -/
def bare? : Item → Option Test
  | node test [] [] => some test
  | _ => none

/-- Changes the step at `i` and the alternatives it leads to further on. -/
def alongOthers (f : Demand → Demand) (stop : Nat) : Nat → Nat → List Step → List Step
  | 0, _, steps => steps
  | fuel + 1, i, steps =>
    let changed := steps.modify i (Step.withDemand f)
    match steps[i]?.bind (·.demand.other) with
    | some other => if i < other && other < stop then alongOthers f stop fuel other changed else changed
    | none => changed

/-- Makes `target` the alternative of the last step in the chain of alternatives from `i`. -/
def appendOther (target : Nat) (stop : Nat) : Nat → Nat → List Step → List Step
  | 0, _, steps => steps
  | fuel + 1, i, steps =>
    match steps[i]?.bind (·.demand.other) with
    | some other =>
      if other < stop then appendOther target stop fuel other steps
      else steps.modify i (Step.withDemand ({ · with other := some target }))
    | none => steps.modify i (Step.withDemand ({ · with other := some target }))

mutual

/-- The steps of an item, added behind those of the row so far. -/
def addTo (immediately : Bool) (row : List Step) : Item → List Step
  | node test without members =>
    row ++ [.step { test, without, immediate := immediately } (addAll false [] members)]
  | choice branches =>
    match branches.mapM bare? with
    | some tests => row ++ [.step { test := .oneOf tests, immediate := immediately } []]
    | none => addBranches immediately row branches
  | group members => addAll immediately row members
  | field name item =>
    let steps := addTo immediately row item
    alongOthers ({ · with field := some name }) steps.length steps.length row.length steps
  | capture name item =>
    let steps := addTo immediately row item
    alongOthers (fun d => { d with captures := d.captures ++ [name] }) steps.length steps.length row.length steps
  | optional item =>
    let steps := addTo immediately row item
    appendOther steps.length steps.length steps.length row.length steps
  | repeated nonempty item =>
    let steps := addTo immediately row item ++
      [.step { test := .any, other := some row.length, otherNext := true, through := true } []]
    if nonempty then steps
    else appendOther steps.length (steps.length - 1) steps.length row.length steps
  | immediate item => addTo true row item
  | last item =>
    let steps := addTo immediately row item
    alongOthers ({ · with last := true }) steps.length steps.length row.length steps

def addAll (immediately : Bool) (row : List Step) : List Item → List Step
  | [] => row
  | item :: rest => addAll false (addTo immediately row item) rest

/-- Branches one behind another, each of which leads past all later ones at its end. -/
def addBranches (immediately : Bool) (row : List Step) : List Item → List Step
  | [] => row
  | [item] => addTo immediately row item
  | item :: rest =>
    let steps := addTo immediately row item ++ [.step { test := .any, jump := true } []]
    let next := steps.length
    let all := addBranches immediately steps rest
    (all.modify row.length (Step.withDemand ({ · with other := some next }))).modify (next - 1)
      (Step.withDemand ({ · with other := some all.length }))

end

end Item

/-! ### Reading -/

/-- The text still to be read, the captures named so far and the predicates of the current pattern. -/
structure Cursor where
  rest : List Char
  captures : List String
  predicates : List Predicate

abbrev ReadM := StateT Cursor (Except Fault)

namespace ReadM

def peek : ReadM (Option Char) := do return (← get).rest.head?

def skip (n : Nat) : ReadM Unit := modify fun c => { c with rest := c.rest.drop n }

/-- Leaves out blanks and comments. -/
def skipBlanks : ReadM Unit :=
  modify fun c => { c with rest := blanks (c.rest.length + 1) c.rest }
where
  blanks : Nat → List Char → List Char
    | 0, text => text
    | _ + 1, [] => []
    | fuel + 1, c :: rest =>
      if isBlank c then blanks fuel rest
      else if c = ';' then blanks fuel (rest.dropWhile (· ≠ '\n'))
      else c :: rest

def isNameStart (c : Char) : Bool := isWordChar c || c = '-'

def isNameChar (c : Char) : Bool := isNameStart c || c = '.'

def startsName : ReadM Bool := do return (← peek).any isNameStart

def name : ReadM String := do
  let text := (← get).rest.takeWhile isNameChar
  skip text.length
  return String.ofList text

/-- A literal in double quotes; a backslash takes the next character as it is or names a control
character. -/
def literal : ReadM String := do
  match text [] ((← get).rest.drop 1) with
  | some (chars, rest) =>
    modify fun c => { c with rest }
    return String.ofList chars
  | none => throw .malformed
where
  text (acc : List Char) : List Char → Option (List Char × List Char)
    | [] => none
    | '"' :: rest => some (acc.reverse, rest)
    | '\n' :: _ => none
    | '\\' :: c :: rest =>
      let d := match c with
        | 'n' => '\n'
        | 'r' => '\r'
        | 't' => '\t'
        | '0' => '\x00'
        | c => c
      text (d :: acc) rest
    | c :: rest => text (c :: acc) rest

end ReadM

open ReadM

/-- An argument of a predicate. -/
inductive Argument where
  | capture (name : String)
  | text (text : String)

def readArguments : Nat → ReadM (List Argument)
  | 0 => throw .malformed
  | fuel + 1 => do
    match ← peek with
    | some ')' =>
      skip 1
      skipBlanks
      return []
    | some '@' =>
      skip 1
      unless ← startsName do throw .malformed
      let captured ← name
      unless (← get).captures.contains captured do throw (.unknownCapture captured)
      skipBlanks
      return .capture captured :: (← readArguments fuel)
    | some '"' =>
      let text ← literal
      skipBlanks
      return .text text :: (← readArguments fuel)
    | _ =>
      unless ← startsName do throw .malformed
      let text ← name
      skipBlanks
      return .text text :: (← readArguments fuel)

namespace Argument

def text? : Argument → Option String
  | text t => some t
  | capture _ => none

end Argument

/-- The predicate of a name with its arguments; one that only tells editors something is `none`. -/
def predicateOf (name : String) (arguments : List Argument) : Except Fault (Option Predicate) :=
  let comparison (positive one : Bool) : Except Fault (Option Predicate) :=
    match arguments with
    | [.capture a, .capture b] => .ok (some (.equalsCapture positive one a b))
    | [.capture a, .text t] => .ok (some (.equalsText positive one a t))
    | _ => .error (.wrongArguments name)
  let occurrence (positive one : Bool) : Except Fault (Option Predicate) :=
    match arguments with
    | [.capture a, .text t] =>
      match Regex.ofString? t with
      | some r => .ok (some (.occurs positive one a r))
      | none => .error (.badRegex t)
    | _ => .error (.wrongArguments name)
  let membership (positive : Bool) : Except Fault (Option Predicate) :=
    match arguments with
    | .capture a :: values =>
      match values.mapM Argument.text? with
      | some texts => .ok (some (.anyOf positive a texts))
      | none => .error (.wrongArguments name)
    | _ => .error (.wrongArguments name)
  let setting : Except Fault (Option Predicate) :=
    match arguments with
    | [.text _] | [.text _, .text _] | [.capture _, .text _] | [.capture _, .text _, .text _] => .ok none
    | _ => .error (.wrongArguments name)
  match name with
  | "eq?" => comparison true false
  | "not-eq?" => comparison false false
  | "any-eq?" => comparison true true
  | "any-not-eq?" => comparison false true
  | "match?" => occurrence true false
  | "not-match?" => occurrence false false
  | "any-match?" => occurrence true true
  | "any-not-match?" => occurrence false true
  | "any-of?" => membership true
  | "not-any-of?" => membership false
  | "set!" | "is?" | "is-not?" => setting
  | _ => .ok none

/-- A predicate, behind the mark that opens it. -/
def readPredicate : ReadM Unit := do
  unless ← startsName do throw .malformed
  let predicate ← name
  match ← peek with
  | some mark =>
    unless mark = '?' || mark = '!' do throw .malformed
    skip 1
    skipBlanks
    let arguments ← readArguments ((← get).rest.length + 1)
    match ← (predicateOf (predicate ++ String.singleton mark) arguments : Except Fault _) with
    | some p => modify fun c => { c with predicates := c.predicates ++ [p] }
    | none => pure ()
  | none => throw .malformed

/-- The test that a name in brackets stands for, and the narrower kind behind a slash. -/
def readTest (v : Vocabulary) : ReadM Test := do
  unless ← startsName do throw .malformed
  let kind ← name
  if kind = "_" then return .anyNamed
  if "MISSING".startsWith kind then
    skipBlanks
    if ← startsName then
      let missing ← name
      unless v.named.contains missing do throw (.unknownKind missing)
    else
      match ← peek with
      | some '"' =>
        let missing ← literal
        unless v.tokens.contains missing do throw (.unknownKind missing)
      | some ')' => pure ()
      | _ => throw .malformed
    return .never
  if kind = "ERROR" then return .never
  let isSuper := v.supers.contains kind
  unless v.named.contains kind || isSuper do throw (.unknownKind kind)
  match ← peek with
  | some '/' =>
    unless isSuper do throw (.notAbstract kind)
    skip 1
    let narrower ← if (← peek) = some '"' then literal else name
    unless v.named.contains narrower || v.tokens.contains narrower do throw (.unknownKind narrower)
    return .super kind (some narrower)
  | _ => return if isSuper then .super kind none else .named kind

/-- Repetitions, options and captures behind an item. -/
def readSuffixes : Nat → Item → ReadM Item
  | 0, item => return item
  | fuel + 1, item => do
    match ← peek with
    | some '+' =>
      skip 1
      skipBlanks
      readSuffixes fuel (.repeated true item)
    | some '*' =>
      skip 1
      skipBlanks
      readSuffixes fuel (.repeated false item)
    | some '?' =>
      skip 1
      skipBlanks
      readSuffixes fuel (.optional item)
    | some '@' =>
      skip 1
      unless ← startsName do throw .malformed
      let captured ← name
      modify fun c => { c with captures := if c.captures.contains captured then c.captures else c.captures ++ [captured] }
      skipBlanks
      readSuffixes fuel (.capture captured item)
    | _ => return item

mutual

/-- One item; `none` for a predicate. -/
def readItem (v : Vocabulary) : Nat → ReadM (Option Item)
  | 0 => throw .malformed
  | fuel + 1 => do
    match ← peek with
    | none | some ')' | some ']' => throw .malformed
    | some '[' =>
      skip 1
      skipBlanks
      let branches ← readMembers v fuel ']'
      if branches.isEmpty then throw .malformed
      suffixed (.choice branches)
    | some '(' =>
      skip 1
      skipBlanks
      match ← peek with
      | some '(' | some '"' | some '[' => suffixed (.group (← readMembers v fuel ')'))
      | some '.' | some '#' =>
        skip 1
        readPredicate
        return none
      | _ =>
        let test ← readTest v
        skipBlanks
        let (without, members) ← readChildren v fuel
        suffixed (.node test without members)
    | some '_' =>
      skip 1
      skipBlanks
      suffixed (.node .any [] [])
    | some '"' =>
      let text ← literal
      unless v.tokens.contains text do throw (.unknownKind text)
      suffixed (.node (.token text) [] [])
    | some _ =>
      unless ← startsName do throw .malformed
      let field ← name
      skipBlanks
      unless (← peek) = some ':' do throw .malformed
      skip 1
      skipBlanks
      match ← readItem v fuel with
      | none => throw .malformed
      | some item =>
        unless v.fields.contains field do throw (.unknownField field)
        suffixed (.field field item)
where
  suffixed (item : Item) : ReadM (Option Item) := do
    skipBlanks
    return some (← readSuffixes ((← get).rest.length + 1) item)

/-- The members of a group or the branches of a choice, up to the closing bracket. -/
def readMembers (v : Vocabulary) : Nat → Char → ReadM (List Item)
  | 0, _ => throw .malformed
  | fuel + 1, close => do
    skipBlanks
    if (← peek) = some close then
      skip 1
      return []
    let anchored ← if close = ')' && (← peek) = some '.' then do skip 1; skipBlanks; pure true else pure false
    match ← readItem v fuel with
    | none => readMembers v fuel close
    | some item => return (if anchored then .immediate item else item) :: (← readMembers v fuel close)

/-- The fields a node must not have and its children, up to the closing bracket. -/
def readChildren (v : Vocabulary) : Nat → ReadM (List String × List Item)
  | 0 => throw .malformed
  | fuel + 1 => do
    skipBlanks
    match ← peek with
    | some ')' =>
      skip 1
      return ([], [])
    | some '!' =>
      skip 1
      skipBlanks
      unless ← startsName do throw .malformed
      let field ← name
      unless v.fields.contains field do throw (.unknownField field)
      let (without, items) ← readChildren v fuel
      return (field :: without, items)
    | some '.' =>
      skip 1
      skipBlanks
      match ← peek with
      | some ')' => throw .malformed
      | _ =>
        match ← readItem v fuel with
        | none => readChildren v fuel
        | some item => more v fuel (.immediate item)
    | _ =>
      match ← readItem v fuel with
      | none => readChildren v fuel
      | some item => more v fuel item

/-- The children behind an item, which is the last one if a mark and the bracket follow. -/
def more (v : Vocabulary) : Nat → Item → ReadM (List String × List Item)
  | 0, _ => throw .malformed
  | fuel + 1, item => do
    skipBlanks
    let rest := (← get).rest
    match rest with
    | '.' :: _ =>
      let saved ← get
      skip 1
      skipBlanks
      if (← peek) = some ')' then
        skip 1
        return ([], [.last item])
      set saved
      let (without, items) ← readChildren v fuel
      return (without, item :: items)
    | _ =>
      let (without, items) ← readChildren v fuel
      return (without, item :: items)

end

def readPatterns (v : Vocabulary) : Nat → ReadM (List Pattern)
  | 0 => return []
  | fuel + 1 => do
    skipBlanks
    if (← peek).isNone then return []
    modify fun c => { c with predicates := [] }
    let item ← readItem v (4 * (← get).rest.length + 4)
    let pattern : Pattern := ⟨(item.map (Item.addTo false [])).getD [], (← get).predicates⟩
    return pattern :: (← readPatterns v fuel)

end SyntaxTally.Query
