import SyntaxTally.Query.Basic
import SyntaxTally.Syntax.Python.Grammar
import SyntaxTally.Syntax.Rust.Grammar
import SyntaxTally.Text.Utf8

/-!
# The engine of the languages

Sources are read by the grammars of the languages and queries by the vocabularies of these.
-/
namespace SyntaxTally.Language

open SyntaxTally.Syntax

/-- The tree of a source text, or `none` if the text does not fit the language's grammar. -/
def tree? : Language → List Char → Option Tree
  | python => Python.tree?
  | rust => Rust.tree?

def vocabulary : Language → Vocabulary
  | python => (Vocabulary.ofRules Python.rules Python.symbols).merge
      { Vocabulary.none with named := ["comment", "line_continuation"] }
  | rust => (Vocabulary.ofRules Rust.rules Rust.symbols).merge
      ⟨["line_comment", "block_comment", "doc_comment", "outer_doc_comment_marker", "inner_doc_comment_marker"],
        ["//", "/*", "*/"], ["outer", "inner", "doc"], []⟩

/-- The characters of a source, with its tree. -/
def sourceTree? (language : Language) (source : List UInt8) : Option (Array Char × Tree) :=
  match Text.decodeUtf8 source with
  | .ok text => (language.tree? text).map (text.toArray, ·)
  | .error _ => none

def engine : Engine where
  Query := Query
  Tree := Array Char × Tree
  Node := Tree
  compile language text := (Query.ofString? language.vocabulary text).mapError (·.message)
  captureTotal query := query.captures.length
  parse := sourceTree?
  search query tree := query.matchesIn tree.1 tree.2

end SyntaxTally.Language
