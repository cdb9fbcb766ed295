/-!
# Shell patterns

A wildcard pattern is matched against a whole text: `*` stands for any characters, `?` for one, and
`[...]` for one character of a set. All of them match slashes too. On paths a pattern may begin with
`**/` (any leading directories) and end with `/**` (everything below).
-/
namespace SyntaxTally.Ignore

/-! ### Wildcards -/

inductive Wildcard where
  | star
  | any
  | char (c : Char)
  /-- A character in one of the ranges, or in none of them if `negated`. -/
  | set (negated : Bool) (ranges : List (Char × Char))
  deriving DecidableEq

namespace Wildcard

/-- Cuts the text of a set at each hyphen that can stand between the ends of a range. The first two
characters of a piece are never such a hyphen. -/
def cutAtHyphens : Nat → List Char → List Char → List (List Char)
  | _, piece, [] => [piece.reverse]
  | skip + 1, piece, c :: rest => cutAtHyphens skip (c :: piece) rest
  | 0, piece, c :: rest =>
    if c = '-' then piece.reverse :: cutAtHyphens 2 [] rest else cutAtHyphens 0 (c :: piece) rest

/-- A hyphen behind which nothing follows is a plain character. -/
def mendLast (pieces : List (List Char)) : List (List Char) :=
  match pieces.reverse with
  | [] :: before :: rest => ((before ++ ['-']) :: rest).reverse
  | _ => pieces

/-- Takes out the ranges whose ends are in the wrong order, from the last to the first. -/
def dropEmptyRanges : List (List Char) → List (List Char)
  | [] => []
  | piece :: rest =>
    match dropEmptyRanges rest with
    | next :: more =>
      match piece.getLast?, next.head? with
      | some low, some high =>
        if high < low then (piece.dropLast ++ next.tail) :: more else piece :: next :: more
      | _, _ => piece :: next :: more
    | [] => [piece]

/-- The ranges of a piece and those behind it: the last character of a piece and the first of the next
are the ends of one range, all others stand for themselves. -/
def rangesOf (piece : List Char) : List (List Char) → List (Char × Char)
  | [] => piece.map fun c => (c, c)
  | next :: rest =>
    match piece.getLast?, next with
    | some low, high :: tail => piece.dropLast.map (fun c => (c, c)) ++ (low, high) :: rangesOf tail rest
    | _, _ => piece.map (fun c => (c, c)) ++ rangesOf next rest

/-- What the text between two brackets stands for. -/
def ofSet (text : List Char) : Wildcard :=
  let pieces :=
    if text.contains '-' then
      dropEmptyRanges (mendLast (cutAtHyphens (if text.head? = some '!' then 2 else 1) [] text))
    else [text]
  match pieces with
  | ('!' :: piece) :: rest => if piece.isEmpty && rest.isEmpty then any else set true (rangesOf piece rest)
  | [] => set false []
  | piece :: rest => set false (rangesOf piece rest)

/-- The text of a set behind its opening bracket, and the pattern behind the closing one. A bracket in
the first place, also behind `!`, is part of the text. -/
def setText (pattern : List Char) : Option (List Char × List Char) :=
  let lead := match pattern with
    | '!' :: ']' :: _ => 2
    | '!' :: _ => 1
    | ']' :: _ => 1
    | _ => 0
  let tail := pattern.drop lead
  let more := tail.takeWhile (· ≠ ']')
  match tail.drop more.length with
  | [] => none
  | _ :: rest => some (pattern.take lead ++ more, rest)

/-- The wildcards of a pattern. A bracket that is not closed stands for itself. -/
def parse : Nat → List Char → List Wildcard
  | 0, _ => []
  | _ + 1, [] => []
  | fuel + 1, '*' :: rest => star :: parse fuel rest
  | fuel + 1, '?' :: rest => any :: parse fuel rest
  | fuel + 1, '[' :: rest =>
    match setText rest with
    | none => char '[' :: parse fuel rest
    | some (text, rest) => ofSet text :: parse fuel rest
  | fuel + 1, c :: rest => char c :: parse fuel rest

def ofPattern (pattern : List Char) : List Wildcard := parse (pattern.length + 1) pattern

/-- The wildcard, if it is not a star, accepts the character. -/
def accepts (c : Char) : Wildcard → Bool
  | star => false
  | any => true
  | char d => c = d
  | set negated ranges => ranges.any (fun (low, high) => low ≤ c && c ≤ high) != negated

/-- A text and all that is left of it from the front, longest first. -/
def suffixes : List Char → List (List Char)
  | [] => [[]]
  | c :: rest => (c :: rest) :: suffixes rest

/-- What can be left of one of the texts behind the wildcards. The texts are all ends of one text, the
longest first. -/
def remainders : List Wildcard → List (List Char) → List (List Char)
  | [], texts => texts
  | star :: more, texts => remainders more (texts.head?.elim [] suffixes)
  | w :: more, texts =>
    remainders more (texts.filterMap fun
      | [] => none
      | c :: rest => if w.accepts c then some rest else none)

end Wildcard

/-- The wildcard pattern matches the whole text. -/
def wildcardMatches (text pattern : List Char) : Bool :=
  (Wildcard.remainders (Wildcard.ofPattern pattern) [text]).any List.isEmpty

/-! ### Paths -/

/-- The components of a path. -/
def components : List Char → List (List Char)
  | [] => [[]]
  | c :: rest =>
    if c = '/' then [] :: components rest
    else
      match components rest with
      | [] => [[c]]
      | first :: more => (c :: first) :: more

/-- The path of the components. -/
def joined (parts : List (List Char)) : List Char := ['/'].intercalate parts

def anywhere : List Char := ['*', '*', '/']

def below : List Char := ['/', '*', '*']

/-- A pattern matches a path as a wildcard pattern, or with a trailing `/**` cut off matches one of
the directories above it, or with a leading `**/` cut off matches the end of the path. -/
def globMatches (path pattern : List Char) : Bool :=
  wildcardMatches path pattern ||
  (if trailing : below.isSuffixOf pattern then
    ((List.range ((components path).length - 1)).map (· + 1)).any fun n =>
      globMatches (joined ((components path).take n)) (pattern.take (pattern.length - 3))
  else false) ||
  (if _ : anywhere.isPrefixOf pattern then
    (List.range (components path).length).any fun n =>
      globMatches (joined ((components path).drop n)) (pattern.drop 3)
  else false)
termination_by pattern.length
decreasing_by
  · have : below.length ≤ pattern.length := (List.isSuffixOf_iff_suffix.1 trailing).length_le
    simp [below] at this
    simp; omega
  · have leading : anywhere.isPrefixOf pattern = true := by assumption
    have : anywhere.length ≤ pattern.length := (List.isPrefixOf_iff_prefix.1 leading).length_le
    simp [anywhere] at this
    simp; omega

end SyntaxTally.Ignore
