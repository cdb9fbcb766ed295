import SyntaxTally.Yaml.Kind
import SyntaxTally.Yaml.Token.Lexer

/-!
# YAML nodes

A document is a tree of scalars, sequences and mappings; an alias stands for an anchored node before it or
around it. The tree is read off the tokens by recursive descent.
-/
namespace SyntaxTally.Yaml

inductive Node where
  | scalar (anchor : Option String) (kind : Kind) (text : String)
  /-- The place tells collections apart. -/
  | sequence (anchor : Option String) (kind : Kind) (place : Nat) (items : List Node)
  | mapping (anchor : Option String) (kind : Kind) (place : Nat) (entries : List (Node × Node))
  | reference (name : String)

namespace Node

def anchor : Node → Option String
  | scalar anchor _ _ => anchor
  | sequence anchor _ _ _ => anchor
  | mapping anchor _ _ _ => anchor
  | reference _ => none

def kind : Node → Kind
  | scalar _ kind _ => kind
  | sequence _ kind _ _ => kind
  | mapping _ kind _ _ => kind
  | reference _ => .unknown

/-- What is left out is an empty plain scalar. -/
def missing : Node := scalar none .null ""

/-! ### Anchors -/

mutual

/-- The node and those below it, in the order of the text. -/
def nodes : Node → List Node
  | scalar anchor kind text => [scalar anchor kind text]
  | sequence anchor kind place items => sequence anchor kind place items :: nodesOfItems items
  | mapping anchor kind place entries => mapping anchor kind place entries :: nodesOfEntries entries
  | reference name => [reference name]

def nodesOfItems : List Node → List Node
  | [] => []
  | item :: rest => item.nodes ++ nodesOfItems rest

def nodesOfEntries : List (Node × Node) → List Node
  | [] => []
  | (key, value) :: rest => key.nodes ++ value.nodes ++ nodesOfEntries rest

end

/-- The anchored nodes under their names. Names are unique, and an alias comes behind its anchor. -/
def anchors (seen : List (String × Node)) : List Node → Except Fault (List (String × Node))
  | [] => .ok seen
  | reference name :: rest =>
    if (seen.lookup name).isSome then anchors seen rest else .error (.malformed "undefined alias")
  | node :: rest =>
    match node.anchor with
    | none => anchors seen rest
    | some name =>
      if (seen.lookup name).isSome then .error (.malformed "duplicate anchor")
      else anchors (seen ++ [(name, node)]) rest

end Node

/-! ### Reading nodes -/

/-- The handles of tags and what they stand for. -/
abbrev Handles := List (String × String)

def standardHandles : Handles := [("!", "!"), ("!!", Kind.standardPrefix)]

/-- A node's properties as they are written before it. -/
structure Properties where
  anchor : Option String := none
  tag : Option String := none

def resolveTag (handles : Handles) (tag : Tag) : Except Fault String :=
  match tag.handle with
  | none => .ok tag.suffix
  | some handle =>
    match handles.lookup handle with
    | some start => .ok (start ++ tag.suffix)
    | none => .error (.malformed "undefined tag handle")

/-- An anchor and a tag, each at most once and in any order. -/
def readProperties (handles : Handles) : List Token → Except Fault (Properties × List Token)
  | .anchor name :: .tag tag :: rest => do .ok (⟨some name, some (← resolveTag handles tag)⟩, rest)
  | .anchor name :: rest => .ok (⟨some name, none⟩, rest)
  | .tag tag :: .anchor name :: rest => do .ok (⟨some name, some (← resolveTag handles tag)⟩, rest)
  | .tag tag :: rest => do .ok (⟨none, some (← resolveTag handles tag)⟩, rest)
  | tokens => .ok ({}, tokens)

namespace Properties

/-- The tag says nothing about the kind. -/
def isOpen (p : Properties) : Bool := p.tag.isNone || p.tag = some "!"

def scalar (p : Properties) (text : String) (plain : Bool) : Node :=
  let kind :=
    if (plain && p.tag.isNone) || p.tag = some "!" then Kind.ofPlain text.toList
    else match p.tag with
      | none => .string
      | some tag => Kind.ofTag tag
  .scalar p.anchor kind text

def kindOr (p : Properties) (kind : Kind) : Kind :=
  if p.isOpen then kind else (p.tag.map Kind.ofTag).getD kind

end Properties

def startsWithAny (tokens expected : List Token) : Bool :=
  match tokens with
  | [] => false
  | token :: _ => expected.contains token

mutual

/-- Reads one node. Block collections, and sequences on the level of their mapping, only where they may
stand. -/
def readNode (handles : Handles) : Nat → Bool → Bool → List Token → Except Fault (Node × List Token)
  | 0, _, _, _ => .error (.malformed "nodes are nested too deeply")
  | _ + 1, _, _, .reference name :: rest => .ok (.reference name, rest)
  | fuel + 1, block, level, tokens => do
    let (p, tokens) ← readProperties handles tokens
    let place := tokens.length
    match tokens with
    | .scalar text plain :: rest => .ok (p.scalar text plain, rest)
    | .flowSequence :: rest =>
      let (items, rest) ← readFlowItems handles fuel true rest
      .ok (.sequence p.anchor (p.kindOr .sequence) place items, rest)
    | .flowMapping :: rest =>
      let (entries, rest) ← readFlowEntries handles fuel true rest
      .ok (.mapping p.anchor (p.kindOr .mapping) place entries, rest)
    | _ =>
      if level && startsWithAny tokens [.blockEntry] then
        let (items, rest) ← readLevelItems handles fuel tokens
        .ok (.sequence p.anchor (p.kindOr .sequence) place items, rest)
      else if block && startsWithAny tokens [.blockSequence] then
        let (items, rest) ← readBlockItems handles fuel tokens.tail
        .ok (.sequence p.anchor (p.kindOr .sequence) place items, rest)
      else if block && startsWithAny tokens [.blockMapping] then
        let (entries, rest) ← readBlockEntries handles fuel tokens.tail
        .ok (.mapping p.anchor (p.kindOr .mapping) place entries, rest)
      else if p.anchor.isSome || p.tag.isSome then .ok (p.scalar "" p.tag.isNone, tokens)
      else .error (.malformed "expected a node")

/-- The items of a block sequence. -/
def readBlockItems (handles : Handles) : Nat → List Token → Except Fault (List Node × List Token)
  | fuel + 1, .blockEntry :: rest => do
    let (item, rest) ←
      if startsWithAny rest [.blockEntry, .blockEnd] then pure (Node.missing, rest)
      else readNode handles fuel true false rest
    let (items, rest) ← readBlockItems handles fuel rest
    .ok (item :: items, rest)
  | _, .blockEnd :: rest => .ok ([], rest)
  | _, _ => .error (.malformed "expected the end of a block")

/-- The items of a sequence on the level of its mapping, which ends with the last of them. -/
def readLevelItems (handles : Handles) : Nat → List Token → Except Fault (List Node × List Token)
  | fuel + 1, .blockEntry :: rest => do
    let (item, rest) ←
      if startsWithAny rest [.blockEntry, .key, .value, .blockEnd] then pure (Node.missing, rest)
      else readNode handles fuel true false rest
    let (items, rest) ← readLevelItems handles fuel rest
    .ok (item :: items, rest)
  | _, rest => .ok ([], rest)

/-- A node in a block mapping, which may be left out. -/
def readBlockPart (handles : Handles) : Nat → List Token → Except Fault (Node × List Token)
  | 0, _ => .error (.malformed "nodes are nested too deeply")
  | fuel + 1, tokens =>
    if startsWithAny tokens [.key, .value, .blockEnd] then .ok (.missing, tokens)
    else readNode handles fuel true true tokens

/-- The value in a block mapping, if its mark is there. -/
def readBlockValue (handles : Handles) : Nat → List Token → Except Fault (Node × List Token)
  | fuel + 1, .value :: rest => readBlockPart handles fuel rest
  | _, tokens => .ok (.missing, tokens)

def readBlockEntries (handles : Handles) : Nat → List Token → Except Fault (List (Node × Node) × List Token)
  | fuel + 1, .key :: rest => do
    let (key, rest) ← readBlockPart handles fuel rest
    let (value, rest) ← readBlockValue handles fuel rest
    let (entries, rest) ← readBlockEntries handles fuel rest
    .ok ((key, value) :: entries, rest)
  | _, .blockEnd :: rest => .ok ([], rest)
  | _, _ => .error (.malformed "expected the end of a block")

/-- A node in a flow collection, which may be left out before these tokens. -/
def readFlowPart (handles : Handles) (ends : List Token) :
    Nat → List Token → Except Fault (Node × List Token)
  | 0, _ => .error (.malformed "nodes are nested too deeply")
  | fuel + 1, tokens =>
    if startsWithAny tokens ends then .ok (.missing, tokens) else readNode handles fuel false false tokens

/-- The value in a flow collection, if its mark is there. -/
def readFlowValue (handles : Handles) (close : Token) : Nat → List Token → Except Fault (Node × List Token)
  | fuel + 1, .value :: rest => readFlowPart handles [.flowEntry, close] fuel rest
  | _, tokens => .ok (.missing, tokens)

/-- The items of a flow sequence. A key makes an item a mapping of one entry. -/
def readFlowItems (handles : Handles) : Nat → Bool → List Token → Except Fault (List Node × List Token)
  | _, _, .flowSequenceEnd :: rest => .ok ([], rest)
  | 0, _, _ => .error (.malformed "nodes are nested too deeply")
  | fuel + 1, first, tokens => do
    let tokens ←
      if first then pure tokens
      else match tokens with
        | .flowEntry :: rest => pure rest
        | _ => .error (.malformed "expected ',' or ']'")
    match tokens with
    | .flowSequenceEnd :: rest => .ok ([], rest)
    | .key :: rest =>
      let (key, rest) ← readFlowPart handles [.value, .flowEntry, .flowSequenceEnd] fuel rest
      let (value, rest) ← readFlowValue handles .flowSequenceEnd fuel rest
      let (items, rest) ← readFlowItems handles fuel false rest
      .ok (.mapping none .mapping tokens.length [(key, value)] :: items, rest)
    | _ =>
      let (item, rest) ← readNode handles fuel false false tokens
      let (items, rest) ← readFlowItems handles fuel false rest
      .ok (item :: items, rest)

/-- The entries of a flow mapping. A node without a mark is a key without a value. -/
def readFlowEntries (handles : Handles) :
    Nat → Bool → List Token → Except Fault (List (Node × Node) × List Token)
  | _, _, .flowMappingEnd :: rest => .ok ([], rest)
  | 0, _, _ => .error (.malformed "nodes are nested too deeply")
  | fuel + 1, first, tokens => do
    let tokens ←
      if first then pure tokens
      else match tokens with
        | .flowEntry :: rest => pure rest
        | _ => .error (.malformed "expected ',' or a closing brace")
    match tokens with
    | .flowMappingEnd :: rest => .ok ([], rest)
    | .key :: rest =>
      let (key, rest) ← readFlowPart handles [.value, .flowEntry, .flowMappingEnd] fuel rest
      let (value, rest) ← readFlowValue handles .flowMappingEnd fuel rest
      let (entries, rest) ← readFlowEntries handles fuel false rest
      .ok ((key, value) :: entries, rest)
    | _ =>
      let (key, rest) ← readNode handles fuel false false tokens
      let (entries, rest) ← readFlowEntries handles fuel false rest
      .ok ((key, .missing) :: entries, rest)

end

/-! ### Documents -/

/-- A document: its root, and the anchored nodes under their names. -/
structure Document where
  root : Node
  anchors : List (String × Node)
  /-- More than the number of its nodes. -/
  size : Nat

/-- The handles that the directives before a document give. -/
def readDirectives (versioned : Bool) (handles : Handles) : List Token → Except Fault (Handles × List Token)
  | .directive (.version major) :: rest =>
    if versioned then .error (.malformed "duplicate version")
    else if major ≠ 1 then .error (.malformed "incompatible version")
    else readDirectives true handles rest
  | .directive (.tag handle start) :: rest =>
    if (handles.lookup handle).isSome then .error (.malformed "duplicate tag handle")
    else readDirectives versioned (handles ++ [(handle, start)]) rest
  | .directive .other :: rest => readDirectives versioned handles rest
  | rest => .ok (handles, rest)

/-- Nothing may follow the document but marks of its end. -/
def endsStream : List Token → Bool
  | [.streamEnd] => true
  | .documentEnd :: rest => endsStream rest
  | _ => false

def Document.ofRoot (root : Node) (size : Nat) (rest : List Token) : Except Fault (Option Document) := do
  if endsStream rest then .ok (some ⟨root, ← Node.anchors [] root.nodes, size⟩)
  else .error (.malformed "expected a single document")

/-- The only document of the tokens, if there is one. -/
def Document.ofTokens (tokens : List Token) : Except Fault (Option Document) := do
  let fuel := 4 * tokens.length + 4
  if startsWithAny tokens [.streamEnd] then .ok none
  else
    match tokens with
    | .directive _ :: _ | .documentStart :: _ =>
      let (handles, rest) ← readDirectives false [] tokens
      let handles := handles ++ standardHandles
      match rest with
      | .documentStart :: rest =>
        let (root, rest) ←
          match rest with
          | .directive _ :: _ | .documentStart :: _ | .documentEnd :: _ | .streamEnd :: _ => pure (Node.missing, rest)
          | _ => readNode handles fuel true false rest
        Document.ofRoot root fuel rest
      | _ => .error (.malformed "expected the start of a document")
    | _ =>
      let (root, rest) ← readNode standardHandles fuel true false tokens
      Document.ofRoot root fuel rest

/-- The only document of a text, if there is one. -/
def Document.ofText (text : List Char) : Except Fault (Option Document) := do
  Document.ofTokens (← tokens text)

end SyntaxTally.Yaml
