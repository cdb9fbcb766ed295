import SyntaxTally.Text.Blank

/-!
# Markup

Names are shown as text with tags: `[bold]` begins a style and `[/bold]` ends it. Tags are not printed; a
backslash before one makes it plain text. An end without a beginning is a fault.
-/
namespace SyntaxTally.Report.Markup

structure Tag where
  name : List Char
  parameters : Option (List Char)

/-- The tag as it is written. -/
def Tag.written (tag : Tag) : List Char :=
  match tag.parameters with
  | none => '[' :: tag.name ++ [']']
  | some parameters => '[' :: tag.name ++ '=' :: parameters ++ [']']

inductive Piece where
  | plain (text : List Char)
  | tag (position : Nat) (tag : Tag)

inductive Fault where
  /-- An end that belongs to no beginning. -/
  | unopened (tag : Tag) (position : Nat)
  /-- An end without a name where nothing is open. -/
  | nothingOpen (position : Nat)

def Fault.message : Fault → String
  | unopened tag position =>
    "closing tag '" ++ String.ofList tag.written ++ "' at position " ++ toString position ++
      " doesn't match any open tag"
  | nothingOpen position => "closing tag '[/]' at position " ++ toString position ++ " has nothing to close"

/-! ### Pieces -/

def beginsTag (c : Char) : Bool := ('a' ≤ c && c ≤ 'z') || c = '#' || c = '/' || c = '@'

/-- What stands between the brackets of a tag at the head of the text, and the text behind it. -/
def tagText? : List Char → Option (List Char × List Char)
  | '[' :: c :: rest =>
    if beginsTag c then
      let inside := rest.takeWhile fun d => d ≠ ']' && d ≠ '['
      match rest.drop inside.length with
      | ']' :: after => some (c :: inside, after)
      | _ => none
    else none
  | _ => none

def tagOf (text : List Char) : Tag :=
  let name := text.takeWhile (· ≠ '=')
  match text.drop name.length with
  | [] => ⟨name, none⟩
  | _ :: parameters => ⟨name, some parameters⟩

/-- A backslash before an opening bracket is not shown. -/
def unescape : List Char → List Char
  | '\\' :: '[' :: rest => '[' :: unescape rest
  | c :: rest => c :: unescape rest
  | [] => []

def plainPiece (text : List Char) : List Piece := if text.isEmpty then [] else [.plain (unescape text)]

/-- The pieces of a text; `before` is the plain text before it, the nearest first. The fuel is more than
the text's length. -/
def piecesFrom : Nat → Nat → List Char → List Char → List Piece
  | 0, _, before, _ => plainPiece before.reverse
  | _ + 1, _, before, [] => plainPiece before.reverse
  | fuel + 1, position, before, c :: rest =>
    let slashes := ((c :: rest).takeWhile (· = '\\')).length
    match tagText? ((c :: rest).drop slashes) with
    | none => piecesFrom fuel (position + 1) (c :: before) rest
    | some (inside, after) =>
      let next := position + slashes + inside.length + 2
      let shown := List.replicate (slashes / 2) '\\'
      let piece :=
        if slashes % 2 = 1 then Piece.plain ('[' :: inside ++ [']'])
        else .tag (position + slashes) (tagOf inside)
      plainPiece before.reverse ++ (if shown.isEmpty then [] else [.plain shown]) ++
        piece :: piecesFrom fuel next [] after

def pieces (text : List Char) : List Piece := piecesFrom (text.length + 1) 0 [] text

/-! ### Styles -/

/-- The attributes of a style under all their names, in the order in which they are listed. -/
def attributes : List (String × List String) :=
  [("bold", ["bold", "b"]), ("dim", ["dim", "d"]), ("italic", ["italic", "i"]), ("underline", ["underline", "u"]),
    ("blink", ["blink"]), ("blink2", ["blink2"]), ("reverse", ["reverse", "r"]), ("conceal", ["conceal", "c"]),
    ("strike", ["strike", "s"]), ("underline2", ["underline2", "uu"]), ("frame", ["frame"]),
    ("encircle", ["encircle"]), ("overline", ["overline", "o"])]

def baseColors : List String := ["black", "red", "green", "yellow", "blue", "magenta", "cyan", "white"]

def isColor (word : String) : Bool :=
  baseColors.contains word || baseColors.any (fun color => word = "bright_" ++ color) || word = "default"

/-- What a style says. -/
structure Style where
  on : List String := []
  off : List String := []
  color : Option String := none
  background : Option String := none

/-- The style of some words, if they are all known. -/
def styleOf? (style : Style) : List String → Option Style
  | [] => some style
  | "on" :: color :: rest =>
    if isColor color then styleOf? { style with background := some color } rest else none
  | "not" :: word :: rest =>
    match attributes.find? (·.2.contains word) with
    | some (name, _) => styleOf? { style with on := style.on.erase name, off := name :: style.off.erase name } rest
    | none => none
  | word :: rest =>
    match attributes.find? (·.2.contains word) with
    | some (name, _) => styleOf? { style with on := name :: style.on.erase name, off := style.off.erase name } rest
    | none => if isColor word then styleOf? { style with color := some word } rest else none

/-- The words of a text, without the blanks between them. -/
def wordsOf (text : List Char) : List (List Char) :=
  (text.splitBy fun a b => Text.isSpace a = Text.isSpace b).filter fun run => !run.all Text.isSpace

/-- One spelling for each style: attributes in a fixed order, then the colours. -/
def canonical (name : List Char) : List Char :=
  let lowered := name.map Char.toLower
  match styleOf? {} ((wordsOf lowered).map String.ofList) with
  | none => Text.strip lowered
  | some style =>
    let shown := attributes.filterMap fun (word, _) =>
      if style.on.contains word then some word else if style.off.contains word then some ("not " ++ word) else none
    let words := shown ++ style.color.toList ++ (style.background.map ("on " ++ ·)).toList
    (if words.isEmpty then "none" else " ".intercalate words).toList

/-! ### Rendering -/

/-- The characters that are taken out of every text: bell, backspace, and the returns that would move the
cursor. -/
def isDropped (c : Char) : Bool := [7, 8, 11, 12, 13].contains c.toNat

/-- Takes the innermost open style of that name off the list. -/
def close? (name : List Char) : List (List Char) → Option (List (List Char))
  | [] => none
  | other :: rest => if other = name then some rest else (close? name rest).map (other :: ·)

/-- The text of the pieces, with the open styles, the innermost first. -/
def renderPieces (styles : List (List Char)) : List Piece → Except Fault (List Char)
  | [] => .ok []
  | .plain text :: rest => (renderPieces styles rest).map (text ++ ·)
  | .tag position tag :: rest =>
    match tag.name with
    | '/' :: name =>
      if (Text.strip name).isEmpty then
        match styles with
        | [] => .error (.nothingOpen position)
        | _ :: outer => renderPieces outer rest
      else
        match close? (canonical name) styles with
        | none => .error (.unopened tag position)
        | some outer => renderPieces outer rest
    | name => renderPieces (canonical name :: styles) rest

/-- What is shown of a text with tags. -/
def render (text : List Char) : Except Fault (List Char) :=
  (renderPieces [] (pieces text)).map fun shown => shown.filter (!isDropped ·)

end SyntaxTally.Report.Markup
