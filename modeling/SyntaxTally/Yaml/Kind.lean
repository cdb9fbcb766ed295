import SyntaxTally.Text.Blank

/-!
# Kinds of YAML values

The kinds a tag can name, and the kind that a plain scalar has by its look.
-/
namespace SyntaxTally.Yaml

inductive Kind where
  | null
  | bool
  | int
  | float
  | string
  | binary
  | timestamp
  | sequence
  | mapping
  | orderedMapping
  | pairs
  | set
  /-- The key that takes another mapping in. -/
  | merge
  /-- The key that stands for a mapping's own value. -/
  | value
  /-- A tag that nothing is known about. -/
  | unknown
  deriving DecidableEq

namespace Kind

def standardPrefix : String := "tag:yaml.org,2002:"

def standardNames : List (String × Kind) :=
  [("null", null), ("bool", bool), ("int", int), ("float", float), ("str", string), ("binary", binary),
    ("timestamp", timestamp), ("seq", sequence), ("map", mapping), ("omap", orderedMapping), ("pairs", pairs),
    ("set", set), ("merge", merge), ("value", value)]

def ofTag (tag : String) : Kind :=
  ((standardNames.find? fun (name, _) => tag = standardPrefix ++ name).map (·.2)).getD unknown

def isCollection : Kind → Bool
  | sequence | mapping | orderedMapping | pairs | set => true
  | _ => false

/-! ### Looks of plain scalars -/

def boolWords : List (String × Bool) :=
  [("yes", true), ("no", false), ("true", true), ("false", false), ("on", true), ("off", false)]

/-- A word in lower case, with a capital, or in capitals. -/
def inUsualCase (word text : List Char) : Bool :=
  text = word || text = word.map Char.toUpper ||
    match word, text with
    | first :: rest, head :: tail => head = first.toUpper && tail = rest
    | _, _ => false

def looksBool (text : List Char) : Bool := boolWords.any fun (word, _) => inUsualCase word.toList text

def looksNull (text : List Char) : Bool := text = [] || text = ['~'] || inUsualCase "null".toList text

/-- A line's end at the end of a text does not change its look. -/
def withoutLastBreak (text : List Char) : List Char :=
  if text.getLast? = some '\n' then text.dropLast else text

def unsigned : List Char → List Char
  | '-' :: rest => rest
  | '+' :: rest => rest
  | text => text

def isDigitOr (extra : Char) (c : Char) : Bool := c.isDigit || c = extra

/-- Groups of one or two digits below sixty, each behind a colon. -/
def looksSixty : Nat → List Char → Bool
  | 0, _ => false
  | _ + 1, [] => true
  | fuel + 1, ':' :: rest =>
    match rest with
    | a :: b :: more =>
      if a.isDigit && b.isDigit then a ≤ '5' && looksSixty fuel more
      else a.isDigit && looksSixty fuel (b :: more)
    | [a] => a.isDigit
    | [] => false
  | _ + 1, _ => false

/-- At least one group behind the colons. -/
def looksSixties (text : List Char) : Bool := !text.isEmpty && looksSixty (text.length + 1) text

def looksInt (text : List Char) : Bool :=
  match unsigned text with
  | '0' :: 'b' :: digits => !digits.isEmpty && digits.all fun c => c = '0' || c = '1' || c = '_'
  | '0' :: 'x' :: digits =>
    !digits.isEmpty && digits.all fun c => isDigitOr '_' c || ('a' ≤ c && c ≤ 'f') || ('A' ≤ c && c ≤ 'F')
  | '0' :: digits => digits.all fun c => ('0' ≤ c && c ≤ '7') || c = '_'
  | c :: rest =>
    let more := rest.dropWhile (isDigitOr '_')
    '1' ≤ c && c ≤ '9' && (more.isEmpty || looksSixties more)
  | [] => false

/-- An exponent, which needs a sign, or nothing. -/
def looksExponent : List Char → Bool
  | [] => true
  | c :: sign :: digits =>
    (c = 'e' || c = 'E') && (sign = '-' || sign = '+') && !digits.isEmpty && digits.all Char.isDigit
  | _ => false

def looksFloat (text : List Char) : Bool :=
  let signed := unsigned text
  let special := match signed with
    | '.' :: word => inUsualCaseOf ["inf", "Inf", "INF"] word || (signed = text && inUsualCaseOf ["nan", "NaN", "NAN"] word)
    | _ => false
  let pointed := match signed with
    | c :: rest =>
      match rest.dropWhile (isDigitOr '_') with
      | '.' :: fraction => c.isDigit && looksExponent (fraction.dropWhile (isDigitOr '_'))
      | more =>
        let sixties := more.takeWhile fun d => d.isDigit || d = ':'
        match more.drop sixties.length with
        | '.' :: fraction => c.isDigit && looksSixties sixties && fraction.all (isDigitOr '_')
        | _ => false
    | [] => false
  let leadingPoint := match text with
    | '.' :: c :: rest => c.isDigit && looksExponent (rest.dropWhile (isDigitOr '_'))
    | _ => false
  special || pointed || leadingPoint
where
  inUsualCaseOf (words : List String) (text : List Char) : Bool := words.any fun word => word.toList = text

end Kind

/-! ### Times -/

/-- The parts of a date, with a time or without, as they are written. -/
structure Timestamp where
  year : Nat
  month : Nat
  day : Nat
  /-- Hour, minute and second. -/
  time : Option (Nat × Nat × Nat)
  /-- The minutes by which the time zone is ahead, if it is given by a number. -/
  offset : Option Int
  deriving DecidableEq

namespace Timestamp

/-- A number of at least `least` and at most `most` digits. -/
def number? (least most : Nat) (text : List Char) : Option (Nat × List Char) :=
  let digits := (text.take most).takeWhile Char.isDigit
  if digits.length < least then none
  else some (digits.foldl (fun n d => n * 10 + (d.toNat - 48)) 0, text.drop digits.length)

def expect? (c : Char) : List Char → Option (List Char)
  | d :: rest => if c = d then some rest else none
  | [] => none

/-- What stands between a date and its time. -/
def gap? : List Char → Option (List Char)
  | 'T' :: rest => some rest
  | 't' :: rest => some rest
  | text =>
    let rest := text.dropWhile fun c => c = ' ' || c = '\t'
    if rest.length < text.length then some rest else none

/-- The end of a time: a fraction of a second and a time zone. -/
def zone? (text : List Char) : Option (Option Int) :=
  let text := match text with
    | '.' :: rest => rest.dropWhile Char.isDigit
    | text => text
  match text with
  | [] => some none
  | _ =>
    match text.dropWhile fun c => c = ' ' || c = '\t' with
    | ['Z'] => some none
    | sign :: rest =>
      if sign = '-' || sign = '+' then do
        let (hours, rest) ← number? 1 2 rest
        let (minutes, rest) ← match rest with
          | ':' :: rest => number? 2 2 rest
          | rest => some (0, rest)
        let ahead : Int := hours * 60 + minutes
        if rest.isEmpty then some (some (if sign = '-' then -ahead else ahead)) else none
      else none
    | [] => none

def time? (text : List Char) : Option ((Nat × Nat × Nat) × Option Int) := do
  let (hour, rest) ← number? 1 2 text
  let (minute, rest) ← number? 2 2 (← expect? ':' rest)
  let (second, rest) ← number? 2 2 (← expect? ':' rest)
  pure ((hour, minute, second), ← zone? rest)

/-- Reads a date whose month and day have at least so many digits, alone or with a time. -/
def parse? (leastAlone : Nat) (text : List Char) : Option Timestamp := do
  let (year, rest) ← number? 4 4 text
  let dated := (← expect? '-' rest)
  let (month, rest) ← number? 1 2 dated
  let (day, after) ← number? 1 2 (← expect? '-' rest)
  if after.isEmpty then
    let (_, rest) ← number? leastAlone 2 dated
    let _ ← number? leastAlone 2 (← expect? '-' rest)
    pure ⟨year, month, day, none, none⟩
  else
    let (time, offset) ← time? (← gap? after)
    pure ⟨year, month, day, some time, offset⟩

/-- The time that a text spells, with one or two digits for month and day. -/
def ofText? (text : List Char) : Option Timestamp := parse? 1 (Kind.withoutLastBreak text)

end Timestamp

namespace Kind

/-- A date alone needs two digits for month and day to be taken for one. -/
def looksTimestamp (text : List Char) : Bool := (Timestamp.parse? 2 text).isSome

/-- The kind of a word in a plain scalar. -/
def ofWord (word : List Char) : Kind :=
  if looksBool word then bool
  else if looksFloat word then float
  else if looksInt word then int
  else if word = ['<', '<'] then merge
  else if looksNull word then null
  else if looksTimestamp word then timestamp
  else if word = ['='] then value
  else string

/-- The kind of a plain scalar. -/
def ofPlain (text : List Char) : Kind := if text = ['\n'] then string else ofWord (withoutLastBreak text)

end Kind

end SyntaxTally.Yaml
