import SyntaxTally.Syntax.Lexeme

/-!
# Vocabulary of a grammar

The words in which trees of a grammar are described: the kinds of its named nodes, its literal tokens,
its fields and its abstract kinds, all read off the rules.
-/
namespace SyntaxTally.Syntax

structure Vocabulary where
  named : List String
  tokens : List String
  fields : List String
  supers : List String

namespace Vocabulary

def none : Vocabulary := ⟨[], [], [], []⟩

def merge (a b : Vocabulary) : Vocabulary :=
  ⟨a.named ++ b.named, a.tokens ++ b.tokens, a.fields ++ b.fields, a.supers ++ b.supers⟩

def ofTerminal : Terminal → Vocabulary
  | .word text | .mark text => { none with tokens := [text] }
  | .part c => { none with tokens := [String.singleton c] }
  | .wordOf texts => { none with tokens := texts }
  | .name kind | .anyWord kind | .wordAs _ kind | .markAs _ kind | .leaf kind => { none with named := [kind] }
  | .anyMark | .filler | .newline | .indent | .dedent | .finish => none

mutual

def ofRule {ν : Type} : Rule ν Terminal → Vocabulary
  | .nothing => none
  | .token t => ofTerminal t
  | .ref _ => none
  | .seq a b => merge (ofRule a) (ofRule b)
  | .alt a b => merge (ofRule a) (ofRule b)
  | .many r => ofRule r
  | .node kind named r =>
    merge (if named then { none with named := [kind] } else { none with tokens := [kind] }) (ofRule r)
  | .field name r => merge { none with fields := [name] } (ofRule r)
  | .super name r => merge { none with supers := [name] } (ofRule r)
  | .ahead _ _ => none
  | .only _ r => ofRule r
  | .grow _ head arms => merge (ofRule head) (ofArms arms)

def ofArms {ν : Type} : List (Arm (Rule ν Terminal)) → Vocabulary
  | [] => none
  | arm :: rest =>
    merge ⟨arm.kind.toList, [], arm.headField.toList, arm.headSuper.toList⟩ (merge (ofRule arm.rest) (ofArms rest))

end

/-- The vocabulary of all rules together. -/
def ofRules {ν : Type} (rules : ν → Rule ν Terminal) (symbols : List ν) : Vocabulary :=
  symbols.foldl (fun v s => merge v (ofRule (rules s))) none

end Vocabulary

end SyntaxTally.Syntax
