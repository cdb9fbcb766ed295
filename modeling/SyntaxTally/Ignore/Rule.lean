import SyntaxTally.Ignore.Glob
import SyntaxTally.Text.Blank

/-!
# Ignore rules

A line of an ignore file names what is left out of a walk, or taken in again if it begins with `!`.
-/
namespace SyntaxTally.Ignore

structure Rule where
  pattern : List Char
  /-- The line ended with a slash: only directories are meant. -/
  directoryOnly : Bool
  /-- The line began with a slash: the pattern begins where the ignore file lies. -/
  anchored : Bool
  negate : Bool
  hasSlash : Bool
  deriving DecidableEq

namespace Rule

/-- The last component of a path. -/
def baseName (path : List Char) : List Char := (components path).getLast?.getD []

/-- The rule names the path. A pattern without a slash is matched against the last component only. -/
def names (rule : Rule) (path : List Char) (isDir : Bool) : Bool :=
  !rule.pattern.isEmpty && (!rule.directoryOnly || isDir) &&
    if rule.anchored || rule.hasSlash then
      globMatches path rule.pattern || (rule.directoryOnly && (rule.pattern ++ ['/']).isPrefixOf path)
    else wildcardMatches (baseName path) rule.pattern

/-- The rule of a pattern as it is written; `none` if there is nothing in it. -/
def ofPattern? (text : List Char) (negate : Bool) : Option Rule :=
  let text := Text.strip text
  if text.isEmpty then none
  else
    let directoryOnly := text.getLast? = some '/'
    let text := if directoryOnly then text.dropLast else text
    let anchored := text.head? = some '/'
    let pattern := if anchored then text.tail else text
    some { pattern, directoryOnly, anchored, negate, hasSlash := pattern.contains '/' }

/-- The rule of one line; blank lines and comments have none. -/
def ofLine? (line : List Char) : Option Rule :=
  match Text.strip line with
  | [] => none
  | '#' :: _ => none
  | '!' :: rest => ofPattern? rest true
  | text => ofPattern? text false

end Rule

/-- The rules of an ignore file's lines, in their order. -/
def parseLines (lines : List (List Char)) : List Rule := lines.filterMap Rule.ofLine?

end SyntaxTally.Ignore
