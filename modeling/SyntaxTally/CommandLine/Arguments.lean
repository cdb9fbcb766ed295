import SyntaxTally.CommandLine.Switch
import SyntaxTally.Files.Path
import SyntaxTally.Text.Digit
import SyntaxTally.Text.Quoted

/-!
# Arguments

Reads the arguments of the command line: at most one path, and switches anywhere around it. The name of a
switch can be cut short as long as one switch only is meant, short switches can stand together in one
argument, and behind `--` there are no switches.
-/
namespace SyntaxTally.CommandLine

/-- What the arguments ask for. -/
structure Arguments where
  path : String := "."
  skipped : Bool := false
  verbose : Bool := false
  workers : Option Int := none
  walkThreads : Option Int := none
  followLinks : Bool := false
  hidden : Bool := false
  width : Option Int := none
  config : Option Files.Path := none
  logFile : Option Files.Path := none
  deriving DecidableEq

inductive ArgumentFault where
  | ambiguous (argument : String) (names : List String)
  | valueMissing (switch : Switch)
  | valueIgnored (switch : Switch) (value : String)
  | notInteger (switch : Switch) (value : String)
  | tooSmall (switch : Switch)
  | unrecognized (arguments : List String)
  deriving DecidableEq

namespace ArgumentFault

def ofSwitch (switch : Switch) (text : String) : String := "argument " ++ switch.title ++ ": " ++ text

def message : ArgumentFault → String
  | ambiguous argument names =>
    "ambiguous option: " ++ argument ++ " could match " ++ ", ".intercalate names
  | valueMissing switch => ofSwitch switch "expected one argument"
  | valueIgnored switch value => ofSwitch switch ("ignored explicit argument " ++ Text.quoted value)
  | notInteger switch value => ofSwitch switch ("expected an integer, got " ++ Text.quoted value)
  | tooSmall switch => ofSwitch switch "must be at least 1"
  | unrecognized arguments => "unrecognized arguments: " ++ " ".intercalate arguments

end ArgumentFault

/-- Why the arguments ask for no run. -/
inductive Stop where
  | help
  | version
  | refused (fault : ArgumentFault)
  deriving DecidableEq

/-! ### Kinds of arguments -/

/-- What an argument looks like by itself. -/
inductive Piece where
  | plain (text : String)
  /-- The mark behind which everything is plain. -/
  | mark
  /-- A switch under the name it was found by, and the value in the same argument. -/
  | switch (switch : Switch) (name : String) (value : Option String)
  | unknown (text : String)

/-- The text before and behind the first equals sign. -/
def splitEquals (text : List Char) : List Char × Option (List Char) :=
  match text.dropWhile (· ≠ '=') with
  | [] => (text, none)
  | _ :: value => (text.takeWhile (· ≠ '='), some value)

/-- Switches that an argument can mean which is the whole name of none. -/
def candidates (argument : List Char) : List (Switch × String × Option String) :=
  match argument with
  | '-' :: '-' :: _ =>
    let (start, value) := splitEquals argument
    (Switch.allNames.filter fun (name, _) => start.isPrefixOf name.toList).map fun (name, switch) =>
      (switch, name, value.map String.ofList)
  | '-' :: c :: value =>
    (Switch.allNames.filter fun (name, _) => name.toList = ['-', c]).map fun (name, switch) =>
      (switch, name, some (String.ofList value))
  | _ => []

def isDigit (c : Char) : Bool := (Text.digitValue? c).isSome

/-- A minus and a number, which may have a point before its last digits. -/
def looksNegative : List Char → Bool
  | '-' :: rest =>
    let rest := if rest.getLast? = some '\n' then rest.dropLast else rest
    match rest.dropWhile isDigit with
    | [] => !rest.isEmpty
    | '.' :: fraction => !fraction.isEmpty && fraction.all isDigit
    | _ => false
  | _ => false

/-- The kind of an argument before the mark. -/
def pieceOf (argument : String) : Except ArgumentFault Piece :=
  let chars := argument.toList
  match Switch.ofName? argument with
  | some switch => .ok (.switch switch argument none)
  | none =>
    if chars.head? ≠ some '-' || chars.length = 1 then .ok (.plain argument)
    else
      let (start, value) := splitEquals chars
      match value, Switch.ofName? (String.ofList start) with
      | some value, some switch => .ok (.switch switch (String.ofList start) (some (String.ofList value)))
      | _, _ =>
        match candidates chars with
        | [(switch, name, value)] => .ok (.switch switch name value)
        | [] => .ok (if looksNegative chars || chars.contains ' ' then .plain argument else .unknown argument)
        | several => .error (.ambiguous argument (several.map (·.2.1)))

def pieces : List String → Except ArgumentFault (List Piece)
  | [] => .ok []
  | argument :: rest => do
    if argument = "--" then .ok (.mark :: rest.map .plain)
    else
      let piece ← pieceOf argument
      .ok (piece :: (← pieces rest))

/-! ### Switches and their values -/

/-- The switches that stand together in one argument: those without a value first, then the last one with
what is left of the argument for its value. -/
def unbundled (switch : Switch) : List Char → Except ArgumentFault (List Switch × Switch × Option String)
  | [] => .ok ([], switch, none)
  | c :: rest => do
    if switch.takesValue then .ok ([], switch, some (String.ofList (c :: rest)))
    else
      match Switch.ofName? (String.ofList ['-', c]) with
      | none => .error (.valueIgnored switch (String.ofList (c :: rest)))
      | some next =>
        let (before, last, value) ← unbundled next rest
        .ok (switch :: before, last, value)

def isShortName (name : String) : Bool := name.toList[1]? ≠ some '-'

/-- The switches in one argument, and the value that the last one is given in it. -/
def switchesIn (switch : Switch) (name : String) :
    Option String → Except ArgumentFault (List Switch × Switch × Option String)
  | none => .ok ([], switch, none)
  | some value =>
    if switch.takesValue then .ok ([], switch, some value)
    else if isShortName name && !value.isEmpty then unbundled switch value.toList
    else .error (.valueIgnored switch value)

def positive (switch : Switch) (value : String) : Except ArgumentFault Int :=
  match Text.integer? value.toList with
  | none => .error (.notInteger switch value)
  | some n => if n < 1 then .error (.tooSmall switch) else .ok n

/-- Notes a switch. -/
def Arguments.note (arguments : Arguments) (switch : Switch) (value : String) : Except Stop Arguments :=
  match switch with
  | .help => .error .help
  | .version => .error .version
  | .skipped => .ok { arguments with skipped := true }
  | .verbose => .ok { arguments with verbose := true }
  | .followLinks => .ok { arguments with followLinks := true }
  | .hidden => .ok { arguments with hidden := true }
  | .workers => (positive switch value).map (fun n => { arguments with workers := some n }) |>.mapError .refused
  | .walkThreads => (positive switch value).map (fun n => { arguments with walkThreads := some n }) |>.mapError .refused
  | .width => (positive switch value).map (fun n => { arguments with width := some n }) |>.mapError .refused
  | .config => .ok { arguments with config := some (Files.Path.ofString value) }
  | .logFile => .ok { arguments with logFile := some (Files.Path.ofString value) }

/-- Notes the switches of one argument in their order. -/
def Arguments.noteAll (arguments : Arguments) (before : List Switch) (last : Switch) (value : String) :
    Except Stop Arguments := do
  (← before.foldlM (fun arguments switch => arguments.note switch "") arguments).note last value

/-! ### Reading -/

/-- What has been read. -/
structure Reading where
  arguments : Arguments := {}
  pathRead : Bool := false
  /-- The arguments that nothing asks for. -/
  extra : List String := []

namespace Reading

def takePath (reading : Reading) (path : String) : Reading :=
  { reading with arguments := { reading.arguments with path }, pathRead := true }

def leave (reading : Reading) (argument : String) : Reading :=
  { reading with extra := reading.extra ++ [argument] }

/-- Notes the switches of one argument. `next` is the argument behind it, if that is plain: it is taken as the value of
a switch that needs one and has none, and then the answer is `true`. -/
def noteSwitches (reading : Reading) (switch : Switch) (name : String) (value next : Option String) :
    Except Stop (Reading × Bool) := do
  let (before, last, value) ← (switchesIn switch name value).mapError .refused
  match value, next with
  | some value, _ => .ok ({ reading with arguments := ← reading.arguments.noteAll before last value }, false)
  | none, some next =>
    if last.takesValue then .ok ({ reading with arguments := ← reading.arguments.noteAll before last next }, true)
    else .ok ({ reading with arguments := ← reading.arguments.noteAll before last "" }, false)
  | none, none =>
    if last.takesValue then .error (.refused (.valueMissing last))
    else .ok ({ reading with arguments := ← reading.arguments.noteAll before last "" }, false)

/-- Reads the pieces in their order. The mark belongs to a path beside it. -/
def read (reading : Reading) : List Piece → Except Stop Reading
  | [] => .ok reading
  | .plain text :: .mark :: rest =>
    if reading.pathRead then read ((reading.leave text).leave "--") rest else read (reading.takePath text) rest
  | .plain text :: rest => read (if reading.pathRead then reading.leave text else reading.takePath text) rest
  | .mark :: .plain text :: rest =>
    if reading.pathRead then read ((reading.leave "--").leave text) rest else read (reading.takePath text) rest
  | .mark :: rest =>
    read (if reading.pathRead then reading.leave "--" else { reading with pathRead := true }) rest
  | .unknown text :: rest => read (reading.leave text) rest
  | .switch switch name value :: .plain next :: rest => do
    let (reading, taken) ← reading.noteSwitches switch name value (some next)
    if taken then read reading rest else read reading (.plain next :: rest)
  | .switch switch name value :: rest => do
    let (reading, _) ← reading.noteSwitches switch name value none
    read reading rest

end Reading

/-- Reads the arguments. What nothing asks for is a fault, but only if nothing else is. -/
def Arguments.read (arguments : List String) : Except Stop Arguments := do
  let reading ← ({} : Reading).read (← (pieces arguments).mapError .refused)
  if reading.extra.isEmpty then .ok reading.arguments else .error (.refused (.unrecognized reading.extra))

end SyntaxTally.CommandLine
