import SyntaxTally.CommandLine.Switch
import SyntaxTally.Text.Wrap

/-!
# Usage and help

How the command line is described on a terminal of so many columns. Two of them stay free.
-/
namespace SyntaxTally.CommandLine

def usageLead : String := "usage: "

/-- What may be written, in brackets as all of it can be left out. -/
def switchParts : List String := Switch.all.map fun switch => "[" ++ switch.invocation (switch.names.headD "") ++ "]"

def pathParts : List String := ["[path]"]

/-- Packs parts into lines, each beginning in column `indent` and the first in column `column`. -/
def packed (width indent : Nat) (column : Nat) (line : List String) : List String → List (List String)
  | [] => if line.isEmpty then [] else [line]
  | part :: rest =>
    if width < column + part.length && !line.isEmpty then
      line :: packed width indent (indent + part.length + 1) [part] rest
    else packed width indent (column + part.length + 1) (line ++ [part]) rest

def indented (indent : Nat) (line : String) : String := String.ofList (List.replicate indent ' ') ++ line

def joinedLines (lines : List (List String)) : List String := lines.map (" ".intercalate ·)

/-- The usage in lines. The program's name stands alone if it leaves too little room. -/
def usageLines (columns : Nat) : List String :=
  let width := columns - 2
  let parts := switchParts ++ pathParts
  let whole := usageLead ++ " ".intercalate (programName :: parts)
  let lead := usageLead.length + programName.length
  if whole.length ≤ width then [whole]
  else if 4 * lead ≤ 3 * width then
    let indent := lead + 1
    let lines := joinedLines (packed width indent usageLead.length [] (programName :: switchParts)
      ++ packed width indent indent [] pathParts)
    match lines with
    | [] => []
    | first :: rest => (usageLead ++ first) :: rest.map (indented indent)
  else
    let indent := usageLead.length
    let lines := packed width indent indent [] parts
    let lines :=
      if lines.length ≤ 1 then lines
      else packed width indent indent [] switchParts ++ packed width indent indent [] pathParts
    (usageLead ++ programName) :: (joinedLines lines).map (indented indent)

/-! ### Help -/

/-- Descriptions are wrapped to no less than this. -/
def leastWidth : Nat := 11

/-- The entries of the help: what is described, and its description. -/
def pathEntry : String × String := ("path", pathPurpose)

def switchEntries : List (String × String) :=
  Switch.all.map fun switch => (", ".intercalate (switch.names.map switch.invocation), switch.purpose)

/-- The column of the descriptions. -/
def purposeColumn (width : Nat) : Nat :=
  let longest := ((pathEntry :: switchEntries).map (·.1.length)).foldl max 0 + 2
  min (longest + 2) (min 24 (max (width - 20) 4))

/-- One entry of the help. What is long stands on a line of its own. -/
def entryLines (width : Nat) (entry : String × String) : List String :=
  let column := purposeColumn width
  let described := indented 2 entry.1
  let lines := Text.wrapped (max (width - column) leastWidth) entry.2
  if described.length + 2 ≤ column then
    match lines with
    | [] => [described]
    | first :: rest => (described ++ indented (column - described.length) first) :: rest.map (indented column)
  else described :: lines.map (indented column)

def helpLines (columns : Nat) : List String :=
  let width := columns - 2
  usageLines columns ++ [""] ++ Text.wrapped (max width leastWidth) programPurpose
    ++ ["", "positional arguments:"] ++ entryLines width pathEntry
    ++ ["", "options:"] ++ switchEntries.flatMap (entryLines width)

def linesText (lines : List String) : String := String.join (lines.map (· ++ "\n"))

def usageText (columns : Nat) : String := linesText (usageLines columns)

def helpText (columns : Nat) : String := linesText (helpLines columns)

end SyntaxTally.CommandLine
