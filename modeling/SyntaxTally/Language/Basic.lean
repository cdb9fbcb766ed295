import SyntaxTally.Language.Shipped

/-!
# Languages

The languages whose sources are counted.
-/
namespace SyntaxTally

inductive Language where
  | python
  | rust
  deriving DecidableEq, Hashable

namespace Language

def all : List Language := [python, rust]

def name : Language → String
  | python => "python"
  | rust => "rust"

/-- The file name extension, with its dot. -/
def extension : Language → String
  | python => ".py"
  | rust => ".rs"

def shippedQuery : Language → String
  | python => Shipped.python
  | rust => Shipped.rust

end Language

end SyntaxTally
