import SyntaxTally.Syntax.Lexeme

/-!
# Regular expressions

Regular expressions as predicates of a query use them: an expression either occurs somewhere in a
text or it does not. Since only that is asked, a match is the set of places at which it can end.
-/
namespace SyntaxTally.Query

inductive CharClass where
  | char (c : Char)
  | range (low high : Char)
  | digit (positive : Bool)
  | word (positive : Bool)
  | space (positive : Bool)
  deriving DecidableEq

namespace CharClass

def accepts (c : Char) : CharClass → Bool
  | char d => c = d
  | range low high => low ≤ c && c ≤ high
  | digit positive => c.isDigit = positive
  | word positive => SyntaxTally.Syntax.isWordChar c = positive
  | space positive => SyntaxTally.Syntax.isBlank c = positive

end CharClass

inductive Regex where
  | empty
  | any
  | set (positive : Bool) (classes : List CharClass)
  | seq (first next : Regex)
  | alt (first otherwise : Regex)
  | rep (item : Regex) (least : Nat) (most : Option Nat)
  | textStart
  | lineEnd
  | textEnd
  | boundary (positive : Bool)
  | ahead (positive : Bool) (item : Regex)

namespace Regex

def union (a b : List Nat) : List Nat := a ++ b.filter (!a.contains ·)

/-- Applies a step as often as the bounds allow; a place reached once is not followed again. -/
def iterate (step : List Nat → List Nat) : Nat → Nat → Option Nat → List Nat → List Nat → List Nat
  | 0, _, _, _, seen => seen
  | fuel + 1, least + 1, most, here, seen => iterate step fuel least (most.map (· - 1)) (step here) seen
  | fuel + 1, 0, most, here, seen =>
    let fresh := here.filter (!seen.contains ·)
    let seen := union seen here
    if fresh.isEmpty || most = some 0 then seen
    else iterate step fuel 0 (most.map (· - 1)) (step fresh) seen

/-- The places where the expression can end if it begins at one of the given places. -/
def ends (text : Array Char) : Regex → List Nat → List Nat
  | empty, here => here
  | any, here => (here.filter (fun i => text[i]?.any (· ≠ '\n'))).map (· + 1)
  | set positive classes, here =>
    (here.filter (fun i => text[i]?.any (fun c => classes.any (·.accepts c) = positive))).map (· + 1)
  | seq a b, here => ends text b (ends text a here)
  | alt a b, here => union (ends text a here) (ends text b here)
  | rep item least most, here => iterate (ends text item) (text.size + least + 2) least most here []
  | textStart, here => here.filter (· = 0)
  | lineEnd, here => here.filter fun i => i = text.size || (i + 1 = text.size && text[i]? = some '\n')
  | textEnd, here => here.filter (· = text.size)
  | boundary positive, here =>
    here.filter fun i =>
      let before := i > 0 && text[i - 1]?.any SyntaxTally.Syntax.isWordChar
      let after := text[i]?.any SyntaxTally.Syntax.isWordChar
      (before != after) = positive
  | ahead positive item, here => here.filter fun i => !(ends text item [i]).isEmpty = positive

/-- The expression occurs somewhere in the text. -/
def occursIn (r : Regex) (text : String) : Bool :=
  let chars := text.toList.toArray
  !(ends chars r (List.range (chars.size + 1))).isEmpty

/-! ### Reading an expression -/

def classEscape (c : Char) : Option CharClass :=
  match c with
  | 'd' => some (.digit true)
  | 'D' => some (.digit false)
  | 'w' => some (.word true)
  | 'W' => some (.word false)
  | 's' => some (.space true)
  | 'S' => some (.space false)
  | _ => none

def hexValue (digits : List Char) : Option Nat :=
  digits.foldlM (fun acc c =>
    if c.isDigit then some (acc * 16 + (c.toNat - '0'.toNat))
    else if 'a' ≤ c && c ≤ 'f' then some (acc * 16 + (c.toNat - 'a'.toNat + 10))
    else if 'A' ≤ c && c ≤ 'F' then some (acc * 16 + (c.toNat - 'A'.toNat + 10))
    else none) 0

/-- The character that an escape stands for, and the text behind it. -/
def charEscape : List Char → Option (Char × List Char)
  | 'n' :: r => some ('\n', r)
  | 't' :: r => some ('\t', r)
  | 'r' :: r => some ('\r', r)
  | 'a' :: r => some ('\x07', r)
  | 'f' :: r => some ('\x0c', r)
  | 'v' :: r => some ('\x0b', r)
  | '0' :: r => some ('\x00', r)
  | 'x' :: a :: b :: r => (hexValue [a, b]).map fun n => (Char.ofNat n, r)
  | 'u' :: a :: b :: c :: d :: r => (hexValue [a, b, c, d]).map fun n => (Char.ofNat n, r)
  | c :: r => if c.isAlphanum then none else some (c, r)
  | [] => none

/-- One member of a set, before it is known whether it begins a range. -/
def setMember : List Char → Option (CharClass × List Char)
  | [] => none
  | '\\' :: c :: r =>
    match classEscape c with
    | some k => some (k, r)
    | none => if c = 'b' then some (.char '\x08', r) else (charEscape (c :: r)).map fun (d, r) => (.char d, r)
  | c :: r => some (.char c, r)

/-- The members of a set up to its closing bracket; a bracket in the first place is a member. -/
def setMembers : Nat → Bool → List Char → Option (List CharClass × List Char)
  | 0, _, _ => none
  | fuel + 1, isFirst, text =>
    match text with
    | ']' :: r => if isFirst then next fuel text else some ([], r)
    | _ => next fuel text
where
  next (fuel : Nat) (text : List Char) : Option (List CharClass × List Char) := do
    let (low, r) ← setMember text
    match low, r with
    | .char a, '-' :: c :: r' =>
      if c = ']' then
        let (more, rest) ← setMembers fuel false r
        pure (.char a :: more, rest)
      else
        let (high, r') ← setMember (c :: r')
        match high with
        | .char b =>
          if b < a then none
          else
            let (more, rest) ← setMembers fuel false r'
            pure (.range a b :: more, rest)
        | _ => none
    | _, _ =>
      let (more, rest) ← setMembers fuel false r
      pure (low :: more, rest)

/-- The bounds in braces, if what follows is that. -/
def bounds (text : List Char) : Option ((Nat × Option Nat) × List Char) :=
  let low := text.takeWhile Char.isDigit
  let value (ds : List Char) : Nat := ds.foldl (fun n d => n * 10 + (d.toNat - '0'.toNat)) 0
  match text.drop low.length with
  | '\x7d' :: r => if low.isEmpty then none else some ((value low, some (value low)), r)
  | ',' :: r =>
    let high := r.takeWhile Char.isDigit
    match r.drop high.length with
    | '\x7d' :: r' => some ((value low, if high.isEmpty then none else some (value high)), r')
    | _ => none
  | _ => none

def isPosition : Regex → Bool
  | textStart | lineEnd | textEnd | boundary _ => true
  | _ => false

mutual

/-- Alternatives up to the end of the text or a closing bracket. -/
def readAlternatives : Nat → List Char → Option (Regex × List Char)
  | 0, _ => none
  | fuel + 1, text => do
    let (r, rest) ← readRow fuel text
    match rest with
    | '|' :: more =>
      let (s, rest) ← readAlternatives fuel more
      pure (.alt r s, rest)
    | _ => pure (r, rest)

def readRow : Nat → List Char → Option (Regex × List Char)
  | 0, _ => none
  | fuel + 1, text =>
    match text with
    | [] | '|' :: _ | ')' :: _ => some (.empty, text)
    | _ => do
      let (item, rest) ← readItem fuel text
      let (item, rest) ← readSuffix item rest
      let (more, rest) ← readRow fuel rest
      pure (.seq item more, rest)

/-- A repetition behind an item; a second one is refused. -/
def readSuffix (item : Regex) (text : List Char) : Option (Regex × List Char) :=
  let found : Option ((Nat × Option Nat) × List Char) :=
    match text with
    | '*' :: r => some ((0, none), r)
    | '+' :: r => some ((1, none), r)
    | '?' :: r => some ((0, some 1), r)
    | '\x7b' :: r => bounds r
    | _ => none
  match found with
  | none => some (item, text)
  | some ((least, most), r) =>
    if isPosition item || most.any (· < least) then none
    else
      let r := match r with
        | '?' :: r' | '+' :: r' => r'
        | _ => r
      match r with
      | '*' :: _ | '+' :: _ | '?' :: _ => none
      | '\x7b' :: r' => if (bounds r').isSome then none else some (.rep item least most, r)
      | _ => some (.rep item least most, r)

def readItem : Nat → List Char → Option (Regex × List Char)
  | 0, _ => none
  | fuel + 1, text =>
    let closed (wrap : Regex → Regex) (body : List Char) : Option (Regex × List Char) :=
      match readAlternatives fuel body with
      | some (r, ')' :: rest) => some (wrap r, rest)
      | _ => none
    match text with
    | [] => none
    | '*' :: _ | '+' :: _ | '?' :: _ => none
    | '.' :: r => some (.any, r)
    | '^' :: r => some (.textStart, r)
    | '$' :: r => some (.lineEnd, r)
    | '[' :: '^' :: r => (setMembers (r.length + 1) true r).map fun (m, r) => (.set false m, r)
    | '[' :: r => (setMembers (r.length + 1) true r).map fun (m, r) => (.set true m, r)
    | '(' :: '?' :: ':' :: r => closed id r
    | '(' :: '?' :: '=' :: r => closed (.ahead true) r
    | '(' :: '?' :: '!' :: r => closed (.ahead false) r
    | '(' :: '?' :: 'P' :: '<' :: r =>
      let name := r.takeWhile (· ≠ '>')
      if name.isEmpty || name.head?.any Char.isDigit then none
      else closed id (r.drop (name.length + 1))
    | '(' :: '?' :: _ => none
    | '(' :: r => closed id r
    | '\\' :: 'A' :: r => some (.textStart, r)
    | '\\' :: 'Z' :: r => some (.textEnd, r)
    | '\\' :: 'b' :: r => some (.boundary true, r)
    | '\\' :: 'B' :: r => some (.boundary false, r)
    | '\\' :: c :: r =>
      match classEscape c with
      | some k => some (.set true [k], r)
      | none => (charEscape (c :: r)).map fun (d, r) => (.set true [.char d], r)
    | '\\' :: [] => none
    | c :: r => some (.set true [.char c], r)

end

/-- The expression that a text spells, or `none` if it spells none. -/
def ofString? (text : String) : Option Regex :=
  let chars := text.toList
  match readAlternatives (3 * chars.length + 3) chars with
  | some (r, []) => some r
  | _ => none

end Regex

end SyntaxTally.Query
