import SyntaxTally.Yaml.Token

/-!
# Tokens of a YAML text

Indentation opens and closes block collections. A key without a mark of its own is known only when its
colon is met: its place is kept, and the tokens that begin it are put in there.
-/
namespace SyntaxTally.Yaml

/-- Where a key may have begun. -/
structure PossibleKey where
  /-- The number of tokens before it. -/
  token : Nat
  /-- It begins a line of a block mapping, so it has to be a key. -/
  required : Bool
  index : Nat
  line : Nat
  column : Nat

structure Lexer where
  cursor : Cursor
  tokens : Array Token := #[]
  /-- The column of the innermost block collection, or -1 outside all of them. -/
  indent : Int := -1
  /-- The columns of the outer ones. -/
  indents : List Int := []
  /-- A key may begin here. -/
  keyAllowed : Bool := true
  /-- The possible key of each open flow collection, the innermost first, and last that outside of them. -/
  keys : List (Option PossibleKey) := [none]

namespace Lexer

def inFlow (l : Lexer) : Bool := 1 < l.keys.length

def emit (l : Lexer) (token : Token) : Lexer := { l with tokens := l.tokens.push token }

/-- One column further in than the innermost block collection. -/
def inside (l : Lexer) : Nat := (l.indent + 1).toNat

/-! ### Keys -/

def lostKey : Fault := .malformed "could not find expected ':'"

/-- Gives up keys that would be longer than a line or than 1024 characters. -/
def dropStaleKeys (l : Lexer) : Except Fault Lexer :=
  let stale (key : PossibleKey) : Bool :=
    key.line ≠ l.cursor.line || 1024 < l.cursor.index - key.index
  if l.keys.any fun key => (key.map fun k => stale k && k.required).getD false then .error lostKey
  else .ok { l with keys := l.keys.map fun key => key.filter (!stale ·) }

/-- Gives up the possible key at this level. -/
def dropKey (l : Lexer) : Except Fault Lexer :=
  match l.keys with
  | some key :: rest => if key.required then .error lostKey else .ok { l with keys := none :: rest }
  | _ => .ok l

/-- The next token may begin a key. -/
def saveKey (l : Lexer) : Except Fault Lexer :=
  if l.keyAllowed then do
    let key : PossibleKey :=
      { token := l.tokens.size, required := !l.inFlow && l.indent = l.cursor.column
        index := l.cursor.index, line := l.cursor.line, column := l.cursor.column }
    let l ← l.dropKey
    .ok { l with keys := some key :: l.keys.tail }
  else .ok l

/-! ### Indentation -/

/-- Ends the block collections that are further in than the column. -/
def closeTo (column : Int) : List Int → Lexer → Lexer
  | [], l => l
  | outer :: indents, l =>
    if column < l.indent then closeTo column indents { l.emit .blockEnd with indent := outer, indents } else l

def unwind (l : Lexer) (column : Int) : Lexer := if l.inFlow then l else closeTo column l.indents l

/-- Begins a block collection at the column, unless there is one already. -/
def openBlock (l : Lexer) (column : Nat) (token : Token) (place : Nat) : Lexer :=
  if l.indent < column then
    { l with indent := column, indents := l.indent :: l.indents
             tokens := l.tokens.take place ++ #[token] ++ l.tokens.drop place }
  else l

/-! ### Single tokens -/

/-- Blanks, comments and line ends up to the next token. -/
def skipToToken : Nat → Lexer → Lexer
  | 0, l => l
  | fuel + 1, l =>
    let c := l.cursor.skipSpaces
    let c := if c.peek = some '#' then c.skipLine else c
    if (c.peek.map isBreak).getD false then
      skipToToken fuel { l with cursor := c.lineBreak.2, keyAllowed := l.keyAllowed || !l.inFlow }
    else { l with cursor := c }

/-- The end of all collections before a document's boundary. -/
def closeAll (l : Lexer) : Except Fault Lexer := do
  let l ← (l.unwind (-1)).dropKey
  .ok { l with keyAllowed := false }

def separator (l : Lexer) (token : Token) : Except Fault Lexer := do
  let l ← l.closeAll
  .ok { l.emit token with cursor := l.cursor.skip 3 }

def directive (l : Lexer) : Except Fault Lexer := do
  let l ← l.closeAll
  let (directive, cursor) ← readDirective l.cursor
  .ok { l.emit (.directive directive) with cursor }

def openFlow (l : Lexer) (token : Token) : Except Fault Lexer := do
  let l ← l.saveKey
  .ok { l.emit token with cursor := l.cursor.next, keyAllowed := true, keys := none :: l.keys }

def closeFlow (l : Lexer) (token : Token) : Except Fault Lexer := do
  if !l.inFlow then .error (.malformed "nothing to close")
  else
    let l ← l.dropKey
    .ok { l.emit token with cursor := l.cursor.next, keyAllowed := false, keys := l.keys.tail }

def flowEntry (l : Lexer) : Except Fault Lexer := do
  let l ← l.dropKey
  .ok { l.emit .flowEntry with cursor := l.cursor.next, keyAllowed := true }

/-- A mark that begins an entry or a key of a block collection. -/
def blockMark (l : Lexer) (collection mark : Token) (keyAllowed : Bool) : Except Fault Lexer := do
  if !l.inFlow && !l.keyAllowed then .error (.malformed "no entry or key is allowed here")
  else
    let l := if l.inFlow then l else l.openBlock l.cursor.column collection l.tokens.size
    let l ← l.dropKey
    .ok { l.emit mark with cursor := l.cursor.next, keyAllowed }

/-- A colon: what came before it was a key, or a key is left out. -/
def value (l : Lexer) : Except Fault Lexer :=
  match l.keys with
  | some key :: outer =>
    let tokens := l.tokens.take key.token ++ #[Token.key] ++ l.tokens.drop key.token
    let l := { l with tokens, keys := none :: outer }
    let l := if l.inFlow then l else l.openBlock key.column .blockMapping key.token
    .ok { l.emit .value with cursor := l.cursor.next, keyAllowed := false }
  | _ => l.blockMark .blockMapping .value (!l.inFlow)

/-- A token that may begin a key. -/
def keyed (l : Lexer) (read : Cursor → Except Fault (Token × Cursor)) : Except Fault Lexer := do
  let l ← l.saveKey
  let (token, cursor) ← read l.cursor
  .ok { l.emit token with cursor, keyAllowed := false }

def block (l : Lexer) (fold : Bool) : Except Fault Lexer := do
  let l ← l.dropKey
  let (text, cursor) ← readBlock fold (max 1 l.inside) l.cursor
  .ok { l.emit (.scalar (String.ofList text) false) with cursor, keyAllowed := true }

def quoted (l : Lexer) (double : Bool) : Except Fault Lexer :=
  l.keyed fun c => (readQuoted double c).map fun (text, c) => (.scalar (String.ofList text) false, c)

def plain (l : Lexer) : Except Fault Lexer := do
  let l ← l.saveKey
  let (text, newLine, cursor) := readPlain l.inFlow l.inside l.cursor
  .ok { l.emit (.scalar (String.ofList text) true) with cursor, keyAllowed := newLine }

/-- A plain scalar may begin with this character. -/
def beginsPlain (l : Lexer) (char : Char) : Bool :=
  !(endsToken (some char) || isAmong "-?:,[]\x7b\x7d#&*!|>'\"%@`" (some char)) ||
    (!endsToken (l.cursor.peekAt 1) && (char = '-' || (!l.inFlow && (char = '?' || char = ':'))))

/-- Reads the token at the cursor. -/
def readToken (l : Lexer) (char : Char) : Except Fault Lexer :=
  let next := l.cursor.peekAt 1
  let atStart := l.cursor.column = 0
  if char = '%' && atStart then l.directive
  else if char = '-' && atStart && l.cursor.atSeparator then l.separator .documentStart
  else if char = '.' && atStart && l.cursor.atSeparator then l.separator .documentEnd
  else if char = '[' then l.openFlow .flowSequence
  else if char = '\x7b' then l.openFlow .flowMapping
  else if char = ']' then l.closeFlow .flowSequenceEnd
  else if char = '\x7d' then l.closeFlow .flowMappingEnd
  else if char = ',' then l.flowEntry
  else if char = '-' && endsToken next then l.blockMark .blockSequence .blockEntry true
  else if char = '?' && (l.inFlow || endsToken next) then l.blockMark .blockMapping .key (!l.inFlow)
  else if char = ':' && (l.inFlow || endsToken next) then l.value
  else if char = '*' then l.keyed fun c => (readAnchor c).map fun (name, c) => (.reference name, c)
  else if char = '&' then l.keyed fun c => (readAnchor c).map fun (name, c) => (.anchor name, c)
  else if char = '!' then l.keyed fun c => (readTag c).map fun (tag, c) => (.tag tag, c)
  else if char = '|' && !l.inFlow then l.block false
  else if char = '>' && !l.inFlow then l.block true
  else if char = '\'' then l.quoted false
  else if char = '"' then l.quoted true
  else if l.beginsPlain char then l.plain
  else .error (.malformed "a character that begins no token")

/-- Reads all tokens. The fuel is more than the number of characters left. -/
def readAll : Nat → Lexer → Except Fault (List Token)
  | 0, _ => .error (.malformed "too many tokens")
  | fuel + 1, l => do
    let l ← (l.skipToToken (l.cursor.rest.length + 1)).dropStaleKeys
    let l := l.unwind l.cursor.column
    match l.cursor.peek with
    | none =>
      let l ← l.closeAll
      .ok (l.emit .streamEnd).tokens.toList
    | some char => readAll fuel (← l.readToken char)

end Lexer

/-- The tokens of a text. A byte order mark at its head is passed over. -/
def tokens (text : List Char) : Except Fault (List Token) :=
  if text.all isAllowed then
    let cursor : Cursor := { rest := text }
    let cursor := if cursor.peek = some byteOrderMark then cursor.next else cursor
    Lexer.readAll (text.length + 2) { cursor }
  else .error (.malformed "special characters are not allowed")

end SyntaxTally.Yaml
