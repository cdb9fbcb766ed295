import SyntaxTally.Number.Decimal
import SyntaxTally.Text.Case
import SyntaxTally.Yaml.Cursor
import SyntaxTally.Yaml.Kind

/-!
# YAML scalars

The value that a text spells, read as one of the kinds of scalars. Plain scalars have a kind that suits their
text, but a tag can ask for any kind, so that reading can fail.
-/
namespace SyntaxTally.Yaml

inductive Scalar where
  | null
  | bool (value : Bool)
  | int (value : Int)
  | float (value : Double)
  | string (value : String)
  | binary (value : List UInt8)
  /-- A time, of which only the presence matters. -/
  | time

namespace Scalar

def valueFault (text : String) : Fault := .impossible (.told "ValueError" text)

def emptyFault : Fault := .impossible (.told "IndexError" "string index out of range")

/-! ### Numbers -/

/-- A text is quoted in part only, if it is long. -/
def integerFault (base : Nat) (text : List Char) : Text.IntegerFault → Fault
  | .invalid =>
    let shown := String.ofList ((Text.quoted (String.ofList text)).toList.take 200)
    valueFault s!"invalid literal for int() with base {base}: {shown}"
  | .tooLong digits =>
    valueFault (s!"Exceeds the limit ({Text.mostDigits} digits) for integer string conversion: value has {digits} digits"
      ++ "; use sys.set_int_max_str_digits() to increase the limit")

def readInteger (base : Nat) (text : List Char) : Except Fault Int :=
  (Text.integerIn base text).mapError (integerFault base text)

/-- The parts between colons. -/
def colonParts (text : List Char) : List (List Char) :=
  text.foldr (fun c parts =>
    match c, parts with
    | ':', parts => [] :: parts
    | c, part :: rest => (c :: part) :: rest
    | c, [] => [[c]]) [[]]

/-- The text without its sign, and whether it was a minus. -/
def splitSign : List Char → Except Fault (Bool × List Char)
  | [] => .error emptyFault
  | '-' :: rest => .ok (true, rest)
  | '+' :: rest => .ok (false, rest)
  | text => .ok (false, text)

/-- Integers with a mark for base two or sixteen, with a leading zero for base eight, with colons between
digits for base sixty, or else in base ten. -/
def readMagnitude : List Char → Except Fault Int
  | [] => .error emptyFault
  | ['0'] => .ok 0
  | '0' :: 'b' :: digits => readInteger 2 digits
  | '0' :: 'x' :: digits => readInteger 16 digits
  | '0' :: digits => readInteger 8 ('0' :: digits)
  | digits => do
    if digits.contains ':' then
      .ok ((← (colonParts digits).mapM (readInteger 10)).foldl (fun n d => n * 60 + d) 0)
    else readInteger 10 digits

def readInt (text : List Char) : Except Fault Int := do
  let (negative, digits) ← splitSign (text.filter (· ≠ '_'))
  let magnitude ← readMagnitude digits
  .ok (if negative then -magnitude else magnitude)

def readDouble (text : List Char) : Except Fault Double :=
  match Double.ofText? text with
  | some value => .ok value
  | none => .error (valueFault ("could not convert string to float: " ++ Text.quoted (String.ofList text)))

/-- With more parts the first of them counts more than a double can hold. -/
def mostSixties : Nat := 174

/-- The sum of the parts, the last counting once and each one before it sixty times as much. -/
def ofSixties (parts : List Double) : Except Fault Double :=
  if mostSixties < parts.length then .error (.impossible (.told "OverflowError" "int too large to convert to float"))
  else
    .ok (parts.reverse.foldl (fun (sum, factor) part => (sum.add (part.scale factor), factor * 60))
      (Double.ofDecimal false 0 0, 1)).1

def readFloat (text : List Char) : Except Fault Double := do
  let (negative, text) ← splitSign ((Text.lower (String.ofList text)).toList.filter (· ≠ '_'))
  let magnitude ←
    if text = ['.', 'i', 'n', 'f'] then pure (.infinite false)
    else if text = ['.', 'n', 'a', 'n'] then pure .nan
    else if text.contains ':' then (colonParts text).mapM readDouble >>= ofSixties
    else readDouble text
  .ok (if negative then magnitude.neg else magnitude)

/-! ### Bytes -/

def base64Digits : List Char := "ABCDEFGHIJKLMNOPQRSTUVWXYZabcdefghijklmnopqrstuvwxyz0123456789+/".toList

/-- The bytes of a text in base 64. `phase` digits of a group of four are read, and `left` is the part of
them that is in no byte yet. A group ends early where padding fills it up. Other characters are passed over. -/
def base64Bytes (phase left pads : Nat) : List Char → Option (List UInt8)
  | [] => if phase = 0 then some [] else none
  | '=' :: rest =>
    if phase < 2 then base64Bytes phase left pads rest
    else if 4 ≤ phase + pads + 1 then some []
    else base64Bytes phase left (pads + 1) rest
  | c :: rest =>
    match base64Digits.idxOf? c with
    | none => base64Bytes phase left pads rest
    | some digit =>
      match phase with
      | 0 => base64Bytes 1 digit 0 rest
      | 1 => (base64Bytes 2 (digit % 16) 0 rest).map (UInt8.ofNat (left * 4 + digit / 16) :: ·)
      | 2 => (base64Bytes 3 (digit % 4) 0 rest).map (UInt8.ofNat (left * 16 + digit / 4) :: ·)
      | _ => (base64Bytes 0 0 0 rest).map (UInt8.ofNat (left * 64 + digit) :: ·)

def readBytes (text : List Char) : Except Fault (List UInt8) :=
  if text.any fun c => 128 ≤ c.toNat then .error (.malformed "binary text is not ASCII")
  else match base64Bytes 0 0 0 text with
    | some bytes => .ok bytes
    | none => .error (.malformed "binary text is not base 64")

/-! ### Times -/

def isLeapYear (year : Nat) : Bool := year % 4 = 0 && (year % 100 ≠ 0 || year % 400 = 0)

def daysInMonth (year month : Nat) : Nat :=
  if month = 2 then if isLeapYear year then 29 else 28
  else if month ∈ [4, 6, 9, 11] then 30 else 31

def checkOffset (minutes : Int) : Except Fault Unit :=
  if -1440 < minutes && minutes < 1440 then .ok ()
  else
    let days := minutes.fdiv 1440
    let seconds := minutes.fmod 1440 * 60
    let shown := if seconds = 0 then s!"days={days}" else s!"days={days}, seconds={seconds}"
    .error (valueFault ("offset must be a timedelta strictly between -timedelta(hours=24) and timedelta(hours=24), "
      ++ s!"not datetime.timedelta({shown})."))

/-- The first part of a time that is out of its range. -/
def checkTime (t : Timestamp) : Except Fault Unit := do
  match t.offset with
  | some minutes => checkOffset minutes
  | none => .ok ()
  if t.year = 0 then .error (valueFault "year 0 is out of range")
  if t.month < 1 || 12 < t.month then .error (valueFault "month must be in 1..12")
  if t.day < 1 || daysInMonth t.year t.month < t.day then .error (valueFault "day is out of range for month")
  match t.time with
  | none => .ok ()
  | some (hour, minute, second) =>
    if 23 < hour then .error (valueFault "hour must be in 0..23")
    if 59 < minute then .error (valueFault "minute must be in 0..59")
    if 59 < second then .error (valueFault "second must be in 0..59")

def readTime (text : List Char) : Except Fault Unit :=
  match Timestamp.ofText? text with
  | some t => checkTime t
  | none => .error (.impossible (.told "AttributeError" "'NoneType' object has no attribute 'groupdict'"))

def readBool (text : String) : Except Fault Bool :=
  match Kind.boolWords.lookup (Text.lower text) with
  | some value => .ok value
  | none => .error (.impossible (.told "KeyError" (Text.lower text)))

/-- The scalar of a kind that a text spells. -/
def ofText (kind : Kind) (text : String) : Except Fault Scalar :=
  match kind with
  | .null => .ok null
  | .bool => bool <$> readBool text
  | .int => int <$> readInt text.toList
  | .float => float <$> readFloat text.toList
  | .string => .ok (.string text)
  | .binary => binary <$> readBytes text.toList
  | .timestamp => (fun _ => time) <$> readTime text.toList
  | .sequence | .mapping | .orderedMapping | .pairs | .set => .error (.malformed "expected a collection")
  | .merge | .value | .unknown => .error (.malformed "no value has this tag")

end Scalar

end SyntaxTally.Yaml
