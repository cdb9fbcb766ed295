/-!
# Wrapped text

Text in lines of a given width. Lines are broken at spaces and behind hyphens inside words. Words that are
longer than a line are cut.
-/
namespace SyntaxTally.Text

/-- A hyphen stands between two letters on each side. -/
def breaksAfter (before after : List Char) : Bool :=
  match before, after with
  | b :: a :: _, c :: d :: _ => a.isAlpha && b.isAlpha && c.isAlpha && d.isAlpha
  | _, _ => false

/-- The chunks that are kept together. `chunk` is the one that is being read, its last character first. -/
def chunksFrom (chunk : List Char) : List Char → List (List Char)
  | [] => if chunk.isEmpty then [] else [chunk.reverse]
  | c :: rest =>
    let ended := !chunk.isEmpty && (chunk.head? = some ' ') ≠ (c = ' ')
    if ended then chunk.reverse :: chunksFrom [c] rest
    else if c = '-' && breaksAfter chunk rest then (c :: chunk).reverse :: chunksFrom [] rest
    else chunksFrom (c :: chunk) rest

def chunks (text : List Char) : List (List Char) := chunksFrom [] text

def isBlankChunk (chunk : List Char) : Bool := chunk.all (· = ' ')

/-- The chunks that fit into the room that is left, and the others. -/
def fitting (room : Nat) : List (List Char) → List (List Char) × List (List Char)
  | [] => ([], [])
  | chunk :: rest =>
    if chunk.length ≤ room then
      let (line, others) := fitting (room - chunk.length) rest
      (chunk :: line, others)
    else ([], chunk :: rest)

/-- Where a chunk is cut that has to fill the room: behind its last hyphen there, or else at the end. -/
def cutPlace (room : Nat) (chunk : List Char) : Nat :=
  let hyphen := room - 1 - ((chunk.take room).reverse.takeWhile (· ≠ '-')).length
  if (chunk.take room).contains '-' && (chunk.take hyphen).any (· ≠ '-') then hyphen + 1 else room

/-- The first line and what is left. -/
def firstLine (width : Nat) (chunks : List (List Char)) : List (List Char) × List (List Char) :=
  let (line, rest) := fitting width chunks
  let (line, rest) :=
    match rest with
    | chunk :: others =>
      if width < chunk.length then
        let place := cutPlace (width - line.flatten.length) chunk
        (line ++ [chunk.take place], chunk.drop place :: others)
      else (line, rest)
    | [] => (line, rest)
  (if (line.getLast?.map isBlankChunk).getD false then line.dropLast else line, rest)

/-- The lines, none of which begins with a blank but the first. -/
def linesOf (width : Nat) : Nat → Bool → List (List Char) → List (List Char)
  | 0, _, _ => []
  | _, _, [] => []
  | fuel + 1, first, chunk :: rest =>
    let chunks := if !first && isBlankChunk chunk then rest else chunk :: rest
    let (line, rest) := firstLine width chunks
    if line.isEmpty then linesOf width fuel first rest
    else line.flatten :: linesOf width fuel false rest

/-- The text in lines of at most the width, which is positive. -/
def wrapped (width : Nat) (text : String) : List String :=
  (linesOf width (text.length + 1) true (chunks text.toList)).map String.ofList

end SyntaxTally.Text
