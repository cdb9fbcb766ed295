import SyntaxTally.Ignore.Glob

/-!
# Paths

A path is its root and its components. Empty components and `.` are dropped, `..` is kept, and two
leading slashes are kept apart from one.
-/
namespace SyntaxTally.Files

structure Path where
  /-- How many leading slashes count: none for a relative path, one or two for an absolute one. -/
  slashes : Nat
  parts : List String
  deriving DecidableEq

namespace Path

/-- The components that say something. -/
def meaningful (parts : List (List Char)) : List String :=
  (parts.filter fun part => part ≠ [] && part ≠ ['.']).map String.ofList

def ofChars (text : List Char) : Path where
  slashes :=
    match (text.takeWhile (· = '/')).length with
    | 0 => 0
    | 2 => 2
    | _ => 1
  parts := meaningful (Ignore.components text)

def ofString (text : String) : Path := ofChars text.toList

def isAbsolute (path : Path) : Bool := path.slashes ≠ 0

/-- The path as it is written; a path without anything in it is the current directory. -/
def toString (path : Path) : String :=
  if path.slashes = 0 && path.parts.isEmpty then "."
  else String.ofList (List.replicate path.slashes '/') ++ "/".intercalate path.parts

instance : ToString Path := ⟨toString⟩

def child (path : Path) (name : String) : Path := { path with parts := path.parts ++ [name] }

/-- The other path seen from this one. -/
def join (path other : Path) : Path :=
  if other.isAbsolute then other else { path with parts := path.parts ++ other.parts }

/-- A component has a null character in it. -/
def hasNull (path : Path) : Bool := path.parts.any (·.toList.contains '\x00')

/-- The path without its last component; a path that has none is its own parent. -/
def parent (path : Path) : Path := { path with parts := path.parts.dropLast }

/-- All paths above a path, the nearest first. -/
def ancestorsOf : List String → List (List String)
  | [] => []
  | part :: rest => (ancestorsOf rest).map (part :: ·) ++ [[]]

def ancestors (path : Path) : List Path :=
  (ancestorsOf path.parts).map fun parts => { path with parts }

/-- The last component, empty if there is none. -/
def name (path : Path) : String := path.parts.getLast?.getD ""

/-- The name from its last dot on, if that dot is neither its first nor its last character. -/
def suffixOf (name : List Char) : List Char :=
  let tail := (name.reverse.takeWhile (· ≠ '.')).reverse
  if tail.isEmpty || name.length ≤ tail.length + 1 then [] else '.' :: tail

def extension (path : Path) : String := String.ofList (suffixOf path.name.toList)

/-- The text that names the entry of a directory when the directory is listed under this path. -/
def listed (path : Path) (name : String) : String :=
  let directory := path.toString
  if directory.endsWith "/" then directory ++ name else directory ++ "/" ++ name

end Path

end SyntaxTally.Files
