import SyntaxTally.Text.Digit
import SyntaxTally.Text.Utf8
import SyntaxTally.Yaml.Cursor

/-!
# YAML tokens

The tokens of a YAML text, and how those are read that have a text of their own: scalars in their five
styles, tags, anchors and directives.
-/
namespace SyntaxTally.Yaml

/-- A tag as it is written: a handle, if there is one, and what follows it. -/
structure Tag where
  handle : Option String
  suffix : String
  deriving DecidableEq

inductive Directive where
  | version (major : Nat)
  | tag (handle suffix : String)
  | other
  deriving DecidableEq

inductive Token where
  | directive (directive : Directive)
  | documentStart
  | documentEnd
  | blockSequence
  | blockMapping
  | blockEnd
  | flowSequence
  | flowSequenceEnd
  | flowMapping
  | flowMappingEnd
  | flowEntry
  | blockEntry
  | key
  | value
  | reference (name : String)
  | anchor (name : String)
  | tag (tag : Tag)
  | scalar (text : String) (plain : Bool)
  | streamEnd
  deriving DecidableEq

/-! ### Anchors -/

/-- The name behind an anchor's or an alias's mark. -/
def readAnchor (c : Cursor) : Except Fault (String × Cursor) :=
  let c := c.next
  let name := c.rest.takeWhile isNameChar
  let after := c.skip name.length
  let ends := endsToken after.peek || isAmong "?:,]\x7d%@`" after.peek
  if name.isEmpty then .error (.malformed "an anchor needs a name")
  else if ends then .ok (String.ofList name, after)
  else .error (.malformed "unexpected character behind an anchor")

/-! ### Tags -/

def isUriChar (c : Char) : Bool := c.isAlphanum || isAmong "-;/?:@&=+$,_.!~*'()[]%" (some c)

def hexValue? (c : Char) : Option Nat :=
  if c.isDigit then some (c.toNat - 48)
  else if 'a' ≤ c && c ≤ 'f' then some (c.toNat - 87)
  else if 'A' ≤ c && c ≤ 'F' then some (c.toNat - 55)
  else none

/-- The number of exactly so many hexadecimal digits. -/
def hexNumber? (count : Nat) (text : List Char) : Option Nat :=
  let digits := text.take count
  if digits.length = count then (digits.mapM hexValue?).map (Text.ofDigits 16) else none

/-- The bytes of escapes that follow one another, and the text behind them. -/
def uriBytes? : Nat → List Char → Option (List UInt8 × List Char)
  | fuel + 1, '%' :: rest => do
    let byte ← hexNumber? 2 rest
    let (bytes, rest) ← uriBytes? fuel (rest.drop 2)
    pure (UInt8.ofNat byte :: bytes, rest)
  | _, rest => some ([], rest)

/-- The characters of a written URI, with escapes taken as the bytes of UTF-8. -/
def uriText? : Nat → List Char → Option (List Char)
  | 0, _ => none
  | _ + 1, [] => some []
  | fuel + 1, '%' :: rest => do
    let (bytes, rest) ← uriBytes? (rest.length + 1) ('%' :: rest)
    let text ← (Text.decodeUtf8 bytes).toOption
    let more ← uriText? fuel rest
    pure (text ++ more)
  | fuel + 1, c :: rest => (uriText? fuel rest).map (c :: ·)

def readUri (c : Cursor) : Except Fault (String × Cursor) :=
  let written := c.rest.takeWhile isUriChar
  match uriText? (written.length + 1) written with
  | some (char :: text) => .ok (String.ofList (char :: text), c.skip written.length)
  | _ => .error (.malformed "expected a URI")

/-- A handle: an exclamation mark alone, or a name between two of them. -/
def readHandle (c : Cursor) : Except Fault (String × Cursor) :=
  if c.peek ≠ some '!' then .error (.malformed "expected '!'")
  else if c.peekAt 1 = some ' ' then .ok ("!", c.next)
  else
    let name := (c.rest.drop 1).takeWhile isNameChar
    let after := c.skip (name.length + 1)
    if after.peek = some '!' then .ok (String.ofList ('!' :: name ++ ['!']), after.next)
    else .error (.malformed "expected '!'")

def readTagParts (c : Cursor) : Except Fault (Tag × Cursor) :=
  if c.peekAt 1 = some '<' then do
    let (suffix, c) ← readUri (c.skip 2)
    if c.peek = some '>' then .ok (⟨none, suffix⟩, c.next) else .error (.malformed "expected '>'")
  else if endsToken (c.peekAt 1) then .ok (⟨none, "!"⟩, c.next)
  else
    let word := (c.rest.drop 1).takeWhile fun d => !endsWord (some d)
    if word.contains '!' then do
      let (handle, c) ← readHandle c
      let (suffix, c) ← readUri c
      .ok (⟨some handle, suffix⟩, c)
    else do
      let (suffix, c) ← readUri c.next
      .ok (⟨some "!", suffix⟩, c)

def readTag (c : Cursor) : Except Fault (Tag × Cursor) := do
  let (tag, c) ← readTagParts c
  if endsWord c.peek then .ok (tag, c) else .error (.malformed "expected a blank behind a tag")

/-! ### Directives -/

def readDigits (c : Cursor) : Except Fault (Nat × Cursor) :=
  let digits := c.rest.takeWhile Char.isDigit
  if digits.isEmpty then .error (.malformed "expected a digit")
  else .ok (Text.ofDigits 10 (digits.map fun d => d.toNat - 48), c.skip digits.length)

def readVersion (c : Cursor) : Except Fault (Directive × Cursor) := do
  let (major, c) ← readDigits c.skipSpaces
  if c.peek ≠ some '.' then .error (.malformed "expected '.'")
  else
    let (_, c) ← readDigits c.next
    if endsWord c.peek then .ok (.version major, c) else .error (.malformed "expected a blank behind a version")

def readTagDirective (c : Cursor) : Except Fault (Directive × Cursor) := do
  let (handle, c) ← readHandle c.skipSpaces
  if c.peek ≠ some ' ' then .error (.malformed "expected a blank behind a handle")
  else
    let (suffix, c) ← readUri c.skipSpaces
    if endsWord c.peek then .ok (.tag handle suffix, c) else .error (.malformed "expected a blank behind a URI")

def readDirective (c : Cursor) : Except Fault (Directive × Cursor) := do
  let c := c.next
  let name := c.rest.takeWhile isNameChar
  let after := c.skip name.length
  if name.isEmpty || !endsWord after.peek then .error (.malformed "expected a directive")
  else
    let (directive, c) ←
      if name = "YAML".toList then readVersion after
      else if name = "TAG".toList then readTagDirective after
      else .ok (Directive.other, after.skipLine)
    .ok (directive, ← c.ignoredLine)

/-! ### Plain scalars -/

/-- A plain scalar ends before this character. -/
def endsPlain (inFlow : Bool) (c : Char) (rest : List Char) : Bool :=
  endsToken (some c) ||
    (c = ':' && (endsToken rest.head? || (inFlow && isAmong ",[]\x7b\x7d" rest.head?))) ||
    (inFlow && isAmong ",?[]\x7b\x7d" (some c))

/-- How many characters of a plain scalar are here. -/
def plainLength (inFlow : Bool) : List Char → Nat
  | [] => 0
  | c :: rest => if endsPlain inFlow c rest then 0 else plainLength inFlow rest + 1

/-- The line ends and spaces that follow, or `none` if a document ends here. -/
def plainBreaks : Nat → Cursor → Option (List Char) × Cursor
  | 0, c => (some [], c)
  | fuel + 1, c =>
    match c.peek with
    | some char =>
      if char = ' ' then plainBreaks fuel c.next
      else if isBreak char then
        let (text, c) := c.lineBreak
        if c.atSeparator then (none, c)
        else
          match plainBreaks fuel c with
          | (some more, c) => (some (text ++ more), c)
          | (none, c) => (none, c)
      else (some [], c)
    | none => (some [], c)

/-- A first line end and the further ones as they are folded: one alone is a space. -/
def folded (first more : List Char) : List Char :=
  if first ≠ ['\n'] then first ++ more else if more.isEmpty then [' '] else more

/-- What stands between two parts of a plain scalar, and whether it goes over a line's end. Nothing means
that the scalar ends. -/
def plainSpaces (c : Cursor) : List Char × Bool × Cursor :=
  let spaces := c.rest.takeWhile (· = ' ')
  let c := c.skip spaces.length
  if (c.peek.map isBreak).getD false then
    let (first, c) := c.lineBreak
    if c.atSeparator then ([], true, c)
    else
      match plainBreaks (c.rest.length + 1) c with
      | (none, c) => ([], true, c)
      | (some more, c) => (folded first more, true, c)
  else (spaces, false, c)

/-- The parts of a plain scalar from here on. The flag tells whether a new line has begun behind it. -/
def plainParts (inFlow : Bool) (indent : Nat) : Nat → List Char → Bool → Cursor → List Char × Bool × Cursor
  | 0, _, newLine, c => ([], newLine, c)
  | fuel + 1, spaces, newLine, c =>
    let length := plainLength inFlow c.rest
    if c.peek = some '#' || length = 0 then ([], newLine, c)
    else
      let part := spaces ++ c.rest.take length
      let (spaces, newLine, c) := plainSpaces (c.skip length)
      if spaces.isEmpty || c.peek = some '#' || (!inFlow && c.column < indent) then (part, newLine, c)
      else
        let (more, newLine, c) := plainParts inFlow indent fuel spaces newLine c
        (part ++ more, newLine, c)

def readPlain (inFlow : Bool) (indent : Nat) (c : Cursor) : List Char × Bool × Cursor :=
  plainParts inFlow indent (c.rest.length + 1) [] false c

/-! ### Quoted scalars -/

/-- What a character behind a backslash stands for. -/
def escapes : List (Char × Nat) :=
  [('0', 0), ('a', 7), ('b', 8), ('t', 9), ('\t', 9), ('n', 10), ('v', 11), ('f', 12), ('r', 13), ('e', 27),
    (' ', 32), ('"', 34), ('\\', 92), ('/', 47), ('N', 0x85), ('_', 0xA0), ('L', 0x2028), ('P', 0x2029)]

/-- How many hexadecimal digits follow such an escape. -/
def codeLengths : List (Char × Nat) := [('x', 2), ('u', 4), ('U', 8)]

/-- The line ends and blanks that follow in a quoted scalar, in which no document may end. -/
def quotedBreaks : Nat → Cursor → Except Fault (List Char × Cursor)
  | 0, c => .ok ([], c)
  | fuel + 1, c =>
    if c.atSeparator then .error (.malformed "a document ends in a quoted scalar")
    else
      let c := c.skipWhile fun d => d = ' ' || d = '\t'
      if (c.peek.map isBreak).getD false then do
        let (text, c) := c.lineBreak
        let (more, c) ← quotedBreaks fuel c
        .ok (text ++ more, c)
      else .ok ([], c)

/-- Blanks and line ends in a quoted scalar. -/
def quotedSpaces (c : Cursor) : Except Fault (List Char × Cursor) :=
  let spaces := c.rest.takeWhile fun d => d = ' ' || d = '\t'
  let c := c.skip spaces.length
  match c.peek with
  | none => .error (.malformed "a quoted scalar does not end")
  | some char =>
    if isBreak char then do
      let (first, c) := c.lineBreak
      let (more, c) ← quotedBreaks (c.rest.length + 1) c
      .ok (folded first more, c)
    else .ok (spaces, c)

/-- The second half of a character that is written as two escapes. -/
def lowHalf? (text : List Char) : Option Nat :=
  match text with
  | '\\' :: 'u' :: rest => (hexNumber? 4 rest).filter fun low => 0xDC00 ≤ low && low ≤ 0xDFFF
  | _ => none

/-- The character of a code in an escape, and how many characters it takes. -/
def codeChar (code length : Nat) (rest : List Char) : Except Fault (Char × Nat) :=
  if 0x80000000 ≤ code then .error (.impossible (.told "OverflowError" "Python int too large to convert to C int"))
  else if 0x110000 ≤ code then .error (.impossible (.told "ValueError" "chr() arg not in range(0x110000)"))
  else
    match if 0xD800 ≤ code && code ≤ 0xDBFF then lowHalf? (rest.drop length) else none with
    | some low => .ok (Char.ofNat (0x10000 + (code - 0xD800) * 1024 + (low - 0xDC00)), length + 6)
    | none => .ok (Char.ofNat code, length)

/-- The character of an escape behind its backslash. -/
def readEscape (c : Cursor) : Except Fault (List Char × Cursor) :=
  match c.peek with
  | none => .error (.malformed "a quoted scalar does not end")
  | some char =>
    match escapes.lookup char, codeLengths.lookup char with
    | some code, _ => .ok ([Char.ofNat code], c.next)
    | none, some length =>
      match hexNumber? length c.next.rest with
      | none => .error (.malformed "an escape needs hexadecimal digits")
      | some code => do
        let (char, taken) ← codeChar code length c.next.rest
        .ok ([char], c.next.skip taken)
    | none, none =>
      if isBreak char then
        let c := c.lineBreak.2
        quotedBreaks (c.rest.length + 1) c
      else .error (.malformed "unknown escape")

/-- The inside of a quoted scalar up to its end. -/
def quotedParts (double : Bool) : Nat → Cursor → Except Fault (List Char × Cursor)
  | 0, _ => .error (.malformed "a quoted scalar does not end")
  | fuel + 1, c =>
    let quote := if double then '"' else '\''
    let more (text : List Char) (c : Cursor) : Except Fault (List Char × Cursor) := do
      let (rest, c) ← quotedParts double fuel c
      .ok (text ++ rest, c)
    match c.peek with
    | none => .error (.malformed "a quoted scalar does not end")
    | some char =>
      if char = quote then
        if !double && c.peekAt 1 = some '\'' then more ['\''] (c.skip 2) else .ok ([], c.next)
      else if double && char = '\\' then do
        let (text, c) ← readEscape c.next
        more text c
      else if endsToken (some char) then do
        let (text, c) ← quotedSpaces c
        more text c
      else more [char] c.next

def readQuoted (double : Bool) (c : Cursor) : Except Fault (List Char × Cursor) :=
  quotedParts double (c.rest.length + 1) c.next

/-! ### Block scalars -/

/-- What happens to the line ends at the end of a block scalar. -/
inductive Chomping where
  | clip
  | strip
  | keep
  deriving DecidableEq

structure BlockHeader where
  chomping : Chomping
  /-- The indentation, if it is given. -/
  increment : Option Nat

def chompingOf? : Option Char → Option Chomping
  | some '+' => some .keep
  | some '-' => some .strip
  | _ => none

def incrementOf? (c : Option Char) : Option Nat := (c.filter Char.isDigit).map fun d => d.toNat - 48

/-- The indicators of a block scalar, in any order. -/
def readBlockHeader (c : Cursor) : Except Fault (BlockHeader × Cursor) :=
  let (header, c) : BlockHeader × Cursor :=
    match chompingOf? c.peek, incrementOf? c.peek with
    | some chomping, _ =>
      match incrementOf? (c.peekAt 1) with
      | some n => (⟨chomping, some n⟩, c.skip 2)
      | none => (⟨chomping, none⟩, c.next)
    | none, some n =>
      match chompingOf? (c.peekAt 1) with
      | some chomping => (⟨chomping, some n⟩, c.skip 2)
      | none => (⟨.clip, some n⟩, c.next)
    | none, none => (⟨.clip, none⟩, c)
  if header.increment = some 0 then .error (.malformed "an indentation of zero")
  else if endsWord c.peek then .ok (header, c)
  else .error (.malformed "expected an indicator of a block scalar")

/-- Empty lines before the first line of a block scalar, with the deepest column they reach. -/
def leadingLines : Nat → Nat → Cursor → List Char × Nat × Cursor
  | 0, deepest, c => ([], deepest, c)
  | fuel + 1, deepest, c =>
    match c.peek with
    | some char =>
      if char = ' ' then leadingLines fuel (max deepest c.next.column) c.next
      else if isBreak char then
        let (text, c) := c.lineBreak
        let (more, deepest, c) := leadingLines fuel deepest c
        (text ++ more, deepest, c)
      else ([], deepest, c)
    | none => ([], deepest, c)

/-- Past spaces, but no further than the column. -/
def indentTo (column : Nat) (c : Cursor) : Cursor :=
  c.skip (min (c.rest.takeWhile (· = ' ')).length (column - c.column))

/-- Empty lines in a block scalar, and the indentation of the line behind them. -/
def emptyLines (indent : Nat) : Nat → Cursor → List Char × Cursor
  | 0, c => ([], c)
  | fuel + 1, c =>
    let c := indentTo indent c
    if (c.peek.map isBreak).getD false then
      let (text, c) := c.lineBreak
      let (more, c) := emptyLines indent fuel c
      (text ++ more, c)
    else ([], c)

def isBlankStart (c : Cursor) : Bool := c.peek = some ' ' || c.peek = some '\t'

/-- The lines of a block scalar, behind the empty lines `breaks`. Gives the text, the last line's end and
the empty lines behind it. -/
def blockLines (fold : Bool) (indent : Nat) :
    Nat → List Char → Cursor → List Char × List Char × List Char × Cursor
  | 0, breaks, c => ([], [], breaks, c)
  | fuel + 1, breaks, c =>
    if c.column = indent && c.peek.isSome then
      let flush := !isBlankStart c
      let line := c.rest.takeWhile (!isBreak ·)
      let (lineEnd, c) := (c.skip line.length).lineBreak
      let (after, c) := emptyLines indent (c.rest.length + 1) c
      let goesOn := c.column = indent && c.peek.isSome
      if goesOn then
        let joint :=
          if fold && lineEnd = ['\n'] && flush && !isBlankStart c then
            if after.isEmpty then [' '] else []
          else lineEnd
        let (more, last, breaks', c) := blockLines fold indent fuel after c
        (breaks ++ line ++ joint ++ more, last, breaks', c)
      else (breaks ++ line, lineEnd, after, c)
    else ([], [], breaks, c)

/-- A block scalar in a collection whose lines are indented so far at least. -/
def readBlock (fold : Bool) (least : Nat) (c : Cursor) : Except Fault (List Char × Cursor) := do
  let (header, c) ← readBlockHeader c.next
  let c ← c.ignoredLine
  let fuel := c.rest.length + 1
  let (indent, breaks, c) := match header.increment with
    | none =>
      let (breaks, deepest, c) := leadingLines fuel 0 c
      (max least deepest, breaks, c)
    | some n =>
      let (breaks, c) := emptyLines (least + n - 1) fuel c
      (least + n - 1, breaks, c)
  let (text, last, breaks, c) := blockLines fold indent fuel breaks c
  let tail := match header.chomping with
    | .strip => []
    | .clip => last
    | .keep => last ++ breaks
  .ok (text ++ tail, c)

end SyntaxTally.Yaml
