import SyntaxTally.Number.Numeral
import SyntaxTally.Yaml.Value

/-!
# Fields of settings

How the value of a field is taken as a number, a truth or a list of texts. What does not fit counts as not
given.
-/
namespace SyntaxTally.Yaml

namespace Scalar

/-- The text of a scalar in a list, if it has one there. -/
def listed? : Scalar → Except Crash (Option String)
  | bool value => .ok (some (if value then "True" else "False"))
  | int value => (Number.numeral value).map some
  | float value => .ok (some value.toText)
  | string text => .ok (some text)
  | null | binary _ | time => .ok none

end Scalar

namespace Value

/-- A whole number, or a text that spells one. -/
def asInt? : Value → Option Int
  | scalar (.int value) => some value
  | scalar (.string text) => Text.integer? text.toList
  | _ => none

/-- A truth, or one of the words for it. -/
def asBool? : Value → Option Bool
  | scalar (.bool value) => some value
  | scalar (.string text) =>
    let word := Text.lower (String.ofList (Text.strip text.toList))
    if word ∈ ["true", "yes", "1"] then some true
    else if word ∈ ["false", "no", "0"] then some false
    else none
  | _ => none

def listed? : Value → Except Crash (Option String)
  | scalar value => value.listed?
  | _ => .ok none

/-- A text alone, or the texts, numbers and truths of a list. -/
def asStrings : Value → Except Crash (List String)
  | scalar (.string text) => .ok [text]
  | scalar (.binary bytes) => .ok (bytes.map fun byte => toString byte.toNat)
  | sequence items => do .ok ((← items.mapM listed?).filterMap id)
  | _ => .ok []

/-- A mapping, or an empty one. -/
def asMapping : Value → Value
  | mapping entries => mapping entries
  | _ => mapping []

end Value

end SyntaxTally.Yaml
