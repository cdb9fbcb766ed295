import SyntaxTally.Failure
import SyntaxTally.Language.Basic
import SyntaxTally.Text.Case

/-!
# Language support

Which language a file is in, by its name alone, and which languages an installation can analyse.
-/
namespace SyntaxTally

open Files

/-! ### Languages of files -/

/-- Why a path names no file of a known language. -/
inductive ResolutionFault where
  | noExtension (path : Path)
  | unknownExtension (extension : String) (path : Path)
  deriving DecidableEq

namespace ResolutionFault

def message : ResolutionFault → String
  | noExtension path => path.toString ++ " has no file extension"
  | unknownExtension extension _ => "Unsupported extension: " ++ extension

def path : ResolutionFault → Path
  | noExtension path => path
  | unknownExtension _ path => path

end ResolutionFault

namespace Language

def ofExtension? (extension : String) : Option Language := all.find? (·.extension = extension)

def ofName? (name : String) : Option Language := all.find? (·.name = name)

/-- The language of a file, by the extension of its name. -/
def ofPath (path : Path) : Except ResolutionFault Language :=
  if path.extension.isEmpty then .error (.noExtension path)
  else
    match ofExtension? path.extension with
    | some language => .ok language
    | none => .error (.unknownExtension (String.ofList path.extension.toList.tail) path)

/-- The package that holds the language's grammar. -/
def grammarPackage (language : Language) : String := "tree_sitter_" ++ language.name

/-- The name of the file that holds the language's query. -/
def queryFile (language : Language) : String := language.name ++ ".scm"

end Language

/-! ### Installations -/

/-- Some of the languages that were asked for are not known. -/
structure UnknownLanguages where
  names : List String
  deriving DecidableEq

def UnknownLanguages.message (unknown : UnknownLanguages) : String :=
  "Unknown languages requested: " ++ ", ".intercalate unknown.names

/-- The languages to be analysed. The names may be in any case, and all languages are meant if none is
asked for. -/
def enabledLanguages : Option (List String) → Except UnknownLanguages (List Language)
  | none => .ok Language.all
  | some asked =>
    let names := asked.map Text.lower
    let unknown := (names.filter fun name => (Language.ofName? name).isNone).eraseDups
    if unknown.isEmpty then .ok (Language.all.filter fun language => names.contains language.name)
    else .error ⟨unknown.mergeSort (· ≤ ·)⟩

/-- What an installation can do. -/
structure Support where
  enabled : List Language
  /-- The languages whose grammar is installed. -/
  installed : List Language
  /-- A query that is used in place of those that come with the languages. -/
  query? : Option String

namespace Support

def ofEnabled (enabled : List Language) : Support := ⟨enabled, Language.all, none⟩

/-- The text of the query for a language. -/
def queryText (support : Support) (language : Language) : Option String :=
  match support.query? with
  | some text => some text
  | none => if support.enabled.contains language then some language.shippedQuery else none

/-- The grammar of a language is at hand. -/
def hasGrammar (support : Support) (language : Language) : Bool :=
  support.enabled.contains language && support.installed.contains language

end Support

end SyntaxTally
