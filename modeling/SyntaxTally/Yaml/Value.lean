import SyntaxTally.Yaml.Node
import SyntaxTally.Yaml.Scalar

/-!
# YAML values

What a document stands for. Every node of it is made into a value, level by level from the root, and the
first that cannot be made is the document's fault. As a document can hold itself, its value is unfolded only
as far as it is asked for.
-/
namespace SyntaxTally.Yaml

inductive Value where
  | scalar (value : Scalar)
  | sequence (items : List Value)
  | mapping (entries : List (Value × Value))
  | set (members : List Value)
  /-- An item of an ordered mapping. -/
  | pair (key value : Value)
  /-- What lies deeper than was asked for. -/
  | deep

namespace Value

def null : Value := scalar .null

def string (text : String) : Value := scalar (.string text)

/-- Nothing, zero or empty. -/
def isEmpty : Value → Bool
  | scalar .null => true
  | scalar (.bool value) => !value
  | scalar (.int value) => value = 0
  | scalar (.float value) => value.isZero
  | scalar (.string text) => text.isEmpty
  | scalar (.binary bytes) => bytes.isEmpty
  | scalar .time => false
  | sequence items => items.isEmpty
  | mapping entries => entries.isEmpty
  | set members => members.isEmpty
  | pair _ _ => false
  | deep => false

def isString (text : String) : Value → Bool
  | scalar (.string found) => found = text
  | _ => false

/-- The value under a text in a mapping. The last of several entries counts. -/
def field? (name : String) : Value → Option Value
  | mapping entries => (entries.findRev? fun (key, _) => key.isString name).map (·.2)
  | _ => none

end Value

/-- Makes a text into a value, or tells why it cannot. -/
abbrev Reader := List Char → Except Fault Value

namespace Document

/-- An alias stands for the node with its anchor. -/
def deref (doc : Document) : Node → Node
  | .reference name => (doc.anchors.lookup name).getD .missing
  | node => node

/-! ### Merged mappings -/

/-- Entries of other mappings come before a mapping's own. -/
structure Flattened where
  merged : List (Node × Node) := []
  own : List (Node × Node) := []

mutual

/-- The entries of a mapping whose merge keys are replaced by the entries that they bring. `busy` are the
mappings around it that are being flattened: their merge keys are left out. -/
def flatten (doc : Document) : Nat → List Nat → List (Node × Node) → Except Fault (List (Node × Node))
  | 0, _, _ => .error (.malformed "mappings are merged too deeply")
  | fuel + 1, busy, entries => do
    let flattened ← flattenEntries doc fuel busy {} entries
    .ok (flattened.merged ++ flattened.own)

def flattenEntries (doc : Document) :
    Nat → List Nat → Flattened → List (Node × Node) → Except Fault Flattened
  | 0, _, _, _ => .error (.malformed "mappings are merged too deeply")
  | _, _, flattened, [] => .ok flattened
  | fuel + 1, busy, flattened, (key, value) :: rest => do
    match (doc.deref key).kind with
    | .merge =>
      let entries ←
        match doc.deref value with
        | .sequence _ _ _ items => flattenItems doc fuel busy items
        | node => flattenNode doc fuel busy node
      flattenEntries doc fuel busy { flattened with merged := flattened.merged ++ entries } rest
    | _ => flattenEntries doc fuel busy { flattened with own := flattened.own ++ [(key, value)] } rest

/-- Of several merged mappings the first ones come last. -/
def flattenItems (doc : Document) : Nat → List Nat → List Node → Except Fault (List (Node × Node))
  | 0, _, _ => .error (.malformed "mappings are merged too deeply")
  | _, _, [] => .ok []
  | fuel + 1, busy, item :: rest => do
    let entries ← flattenNode doc fuel busy (doc.deref item)
    .ok ((← flattenItems doc fuel busy rest) ++ entries)

/-- The entries of a node that is merged. -/
def flattenNode (doc : Document) : Nat → List Nat → Node → Except Fault (List (Node × Node))
  | 0, _, _ => .error (.malformed "mappings are merged too deeply")
  | fuel + 1, busy, .mapping _ _ place entries =>
    if busy.contains place then .ok (entries.filter fun (key, _) => (doc.deref key).kind ≠ .merge)
    else flatten doc fuel (place :: busy) entries
  | _, _, _ => .error (.malformed "expected a mapping to merge")

end

/-- The entries of a mapping after merging. -/
def entriesOf (doc : Document) (place : Nat) (entries : List (Node × Node)) : Except Fault (List (Node × Node)) :=
  doc.flatten doc.size [place] entries

/-! ### Nodes that are made at once -/

/-- The text of a scalar, or of the entry that stands for a mapping's own value. -/
def textOf (doc : Document) : Nat → Node → Except Fault String
  | _, .scalar _ _ text => .ok text
  | fuel + 1, .mapping _ _ _ entries =>
    match entries.find? fun (key, _) => (doc.deref key).kind = .value with
    | some (_, value) => doc.textOf fuel (doc.deref value)
    | none => .error (.malformed "expected a scalar")
  | _, _ => .error (.malformed "expected a scalar")

/-- The scalar that a node stands for, if its kind is one of scalars. -/
def scalarOf (doc : Document) (node : Node) : Except Fault (Option Scalar) := do
  if node.kind.isCollection then .ok none
  else
    match node, node.kind with
    | _, .merge | _, .value | _, .unknown => .error (.malformed "no value has this tag")
    | .mapping _ _ _ _, .timestamp =>
      let _ ← doc.textOf doc.size node
      .error (.impossible (.told "TypeError" "expected string or bytes-like object, got 'list'"))
    | node, kind => some <$> Scalar.ofText kind (← doc.textOf doc.size node)

/-- A key of a mapping is a scalar. The key for a mapping's own value is a text like others. -/
def keyOf (doc : Document) (node : Node) : Except Fault Scalar := do
  let node := match doc.deref node with
    | .scalar anchor .value text => .scalar anchor .string text
    | node => node
  match ← doc.scalarOf node with
  | some scalar => .ok scalar
  | none => .error (.malformed "a key is a collection")

/-! ### Collections -/

/-- What a collection is made of. -/
inductive Parts where
  | items (items : List Node)
  | entries (entries : List (Scalar × Node))
  | members (members : List (Scalar × Node))
  | pairs (pairs : List (Node × Node))

def entryParts (doc : Document) (place : Nat) (entries : List (Node × Node)) :
    Except Fault (List (Scalar × Node)) := do
  (← doc.entriesOf place entries).mapM fun (key, value) => do
    let key ← doc.keyOf key
    let value := doc.deref value
    let _ ← doc.scalarOf value
    .ok (key, value)

/-- The only entry of a mapping. -/
def pairOf (doc : Document) (node : Node) : Except Fault (Node × Node) := do
  match doc.deref node with
  | .mapping _ _ _ [(key, value)] =>
    let key := doc.deref key
    let _ ← doc.scalarOf key
    let value := doc.deref value
    let _ ← doc.scalarOf value
    .ok (key, value)
  | _ => .error (.malformed "expected a mapping of length 1")

/-- Makes the scalars in a collection, in their order. -/
def partsOf (doc : Document) (node : Node) : Except Fault Parts := do
  match node, node.kind with
  | .sequence _ _ _ items, .sequence =>
    .items <$> items.mapM fun item => do
      let item := doc.deref item
      let _ ← doc.scalarOf item
      .ok item
  | .sequence _ _ _ items, .orderedMapping | .sequence _ _ _ items, .pairs => .pairs <$> items.mapM doc.pairOf
  | .mapping _ _ place entries, .mapping => .entries <$> doc.entryParts place entries
  | .mapping _ _ place entries, .set => .members <$> doc.entryParts place entries
  | _, _ => .error (.malformed "the tag does not suit the collection")

def Parts.nodes : Parts → List Node
  | items nodes => nodes
  | entries nodes => nodes.map (·.2)
  | members nodes => nodes.map (·.2)
  | pairs nodes => nodes.flatMap fun (key, value) => [key, value]

/-- Where a collection stands. -/
def placeOf? : Node → Option Nat
  | .sequence _ _ place _ => some place
  | .mapping _ _ place _ => some place
  | _ => none

/-- Makes the collections in the queue and those that they hold, each once. -/
def checkQueue (doc : Document) : Nat → List Nat → List Node → Except Fault Unit
  | 0, _, _ => .ok ()
  | _, _, [] => .ok ()
  | fuel + 1, seen, node :: queue =>
    let place := placeOf? node
    if !node.kind.isCollection || (place.map seen.contains).getD false then checkQueue doc fuel seen queue
    else do
      let parts ← doc.partsOf node
      checkQueue doc fuel (place.toList ++ seen) (queue ++ parts.nodes)

/-- Every node of the document can be made. -/
def check (doc : Document) : Except Fault Unit := do
  let _ ← doc.scalarOf doc.root
  doc.checkQueue (doc.size * doc.size + doc.size) [] [doc.root]

/-! ### Unfolding -/

/-- The value of a node, as deep as it is asked for. -/
def unfold (doc : Document) : Nat → Node → Except Fault Value
  | 0, _ => .ok .deep
  | depth + 1, node => do
    match ← doc.scalarOf node with
    | some scalar => .ok (.scalar scalar)
    | none =>
      match ← doc.partsOf node with
      | .items items => .sequence <$> items.mapM (doc.unfold depth)
      | .entries entries =>
        .mapping <$> entries.mapM fun (key, value) => do .ok (.scalar key, ← doc.unfold depth value)
      | .members members => .ok (.set (members.map fun (key, _) => .scalar key))
      | .pairs pairs =>
        .sequence <$> pairs.mapM fun (key, value) => do .ok (.pair (← doc.unfold depth key) (← doc.unfold depth value))

end Document

/-- The value of a text, as deep as it is asked for. A text without a document stands for nothing. -/
def read (depth : Nat) : Reader := fun text => do
  match ← Document.ofText text with
  | none => .ok .null
  | some doc =>
    doc.check
    doc.unfold depth doc.root

end SyntaxTally.Yaml
