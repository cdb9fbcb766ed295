import SyntaxTally.Language.Engine
import SyntaxTally.Report.Terminal
import SyntaxTally.Settings.File

/-!
# Tools

What the program works with and does not do itself: reading settings files, finding queries in sources and showing
texts on a terminal.
-/
namespace SyntaxTally.CommandLine

structure Tools where
  engine : Engine
  readValue : Yaml.Reader
  painter : Report.Painter

/-- Settings are no deeper than the items of a list in a mapping in the root. -/
def settingsDepth : Nat := 4

/-- The tools that come with the program. -/
def ownTools : Tools := ⟨Language.engine, Yaml.read settingsDepth, Report.terminalPainter⟩

end SyntaxTally.CommandLine
