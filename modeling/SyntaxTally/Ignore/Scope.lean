import SyntaxTally.Ignore.Rule

/-!
# Scopes of ignore rules

The rules of one directory apply to the paths below it. Of all rules that name a path the last one
decides, and scopes further down come later.
-/
namespace SyntaxTally.Ignore

structure Scope where
  /-- The directory of the rules, relative to the root of the walk. -/
  base : List Char
  rules : List Rule
  /-- For rules that lie above the root of the walk: the path from there to the root. -/
  lead : List Char := []
  deriving DecidableEq

namespace Scope

/-- A path below the root as the rules of the scope see it; `none` outside the scope. -/
def relative (scope : Scope) (path : List Char) : Option (List Char) :=
  if !scope.lead.isEmpty then some (scope.lead ++ '/' :: path)
  else if scope.base.isEmpty then some path
  else if (scope.base ++ ['/']).isPrefixOf path then some (path.drop (scope.base.length + 1))
  else none

/-- The rules of the scope that name the path. -/
def matching (scope : Scope) (path : List Char) (isDir : Bool) : List Rule :=
  match scope.relative path with
  | none => []
  | some relative => scope.rules.filter (·.names relative isDir)

end Scope

/-- The path is left out: the last rule that names it is not negated. -/
def ignored (path : List Char) (isDir : Bool) (scopes : List Scope) : Bool :=
  ((scopes.flatMap (·.matching path isDir)).getLast?.map (!·.negate)).getD false

end SyntaxTally.Ignore
